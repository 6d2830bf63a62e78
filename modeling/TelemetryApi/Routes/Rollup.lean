import Mathlib.Order.Bounds.Basic
import TelemetryApi.Routes.Pages
import TelemetryApi.Routes.Timeline

/-!
# Rollups over nested windows

The devices of the last hours stand at the head of the rollup over more hours, with the
same last sighting; the longer window only adds to their figures and lists further devices
behind them. The timeline of the last hours is the end of the one over more hours, up to
the bucket in which the shorter window begins.
-/

namespace TelemetryApi

variable {store : Store} {scan scan' : Scan VendorStats} {now : Int}
  {hours hours' : Bounded 1 (24 * 30)}

theorem hoursBefore_mono (h : (hours : Nat) ≤ hours') :
    hoursBefore now hours' ≤ hoursBefore now hours := by
  simp only [hoursBefore]
  omega

/-- The time of the last event of a device since an instant. -/
def LastSeenSince (store : Store) (since : Int) (device : String × String × String) (last : Int) :
    Prop :=
  IsGreatest {ts | ∃ row ∈ store.since since, row.device = device ∧ row.ts = ts} last

def VendorStats.sighting (stats : VendorStats) : (String × String × String) × Option Int :=
  (stats.device, stats.lastSeen)

/-- A rollup lists the devices with an event in its window, with the time of their last. -/
theorem mem_sightings {device : String × String × String} {seen : Option Int} :
    (device, seen) ∈ (recentDevices store scan now hours).map (·.sighting) ↔
      ∃ last, seen = some last ∧ LastSeenSince store (hoursBefore now hours) device last := by
  constructor
  · intro h
    obtain ⟨stats, hstats, heq⟩ := List.mem_map.mp h
    obtain ⟨rfl, rfl⟩ := Prod.mk.inj heq
    exact lastSeen_isGreatest hstats
  · rintro ⟨last, rfl, hlast⟩
    obtain ⟨row, hrow, rfl, -⟩ := hlast.1
    have hgroup : (row.device, (store.since (hoursBefore now hours)).filter
        fun other => other.device = row.device) ∈
        groups Event.device (store.since (hoursBefore now hours)) :=
      mem_groups.mpr ⟨⟨row, hrow, rfl⟩, rfl⟩
    have hstats : _ ∈ recentDevices store scan now hours :=
      mem_recentDevices.mpr ⟨_, hgroup, rfl⟩
    obtain ⟨last', hseen, hlast'⟩ := lastSeen_isGreatest hstats
    refine List.mem_map.mpr ⟨_, hstats, Prod.ext rfl ?_⟩
    rw [IsGreatest.unique hlast hlast']
    exact hseen

theorem nodup_sightings : ((recentDevices store scan now hours).map (·.sighting)).Nodup := by
  have hdevices : ((recentDevices store scan now hours).map (·.device)).Nodup :=
    recentDevices_nodup
  apply List.Nodup.of_map Prod.fst
  rw [List.map_map]
  exact hdevices

/-- A device seen in the shorter window was last seen then in the longer one too. -/
theorem lastSeenSince_iff {since since' last : Int} {device : String × String × String}
    (h : since' ≤ since) :
    LastSeenSince store since device last ↔
      LastSeenSince store since' device last ∧ since ≤ last := by
  simp only [LastSeenSince, IsGreatest, upperBounds, Store.since, List.mem_filter,
    decide_eq_true_eq, Set.mem_ofPred_eq]
  constructor
  · rintro ⟨⟨row, ⟨hrow, hts⟩, hdevice, rfl⟩, hbound⟩
    refine ⟨⟨⟨row, ⟨hrow, h.trans hts⟩, hdevice, rfl⟩, ?_⟩, hts⟩
    rintro _ ⟨other, ⟨hother, -⟩, hsame, rfl⟩
    obtain hlow | hhigh := lt_or_ge other.ts since
    · exact hlow.le.trans hts
    · exact hbound ⟨other, ⟨hother, hhigh⟩, hsame, rfl⟩
  · rintro ⟨⟨⟨row, ⟨hrow, -⟩, hdevice, rfl⟩, hbound⟩, hts⟩
    refine ⟨⟨row, ⟨hrow, hts⟩, hdevice, rfl⟩, ?_⟩
    rintro _ ⟨other, ⟨hother, hother'⟩, hsame, rfl⟩
    exact hbound ⟨other, ⟨hother, h.trans hother'⟩, hsame, rfl⟩

/-- The figures of a device do not decrease with the window. -/
theorem figures_mono (hhours : (hours : Nat) ≤ hours') {stats stats' : VendorStats}
    (hstats : stats ∈ recentDevices store scan now hours)
    (hstats' : stats' ∈ recentDevices store scan' now hours')
    (hdevice : stats.device = stats'.device) :
    stats.total ≤ stats'.total ∧ stats.crashes ≤ stats'.crashes ∧ stats.errors ≤ stats'.errors := by
  obtain ⟨g, hg, rfl⟩ := mem_recentDevices.mp hstats
  obtain ⟨g', hg', rfl⟩ := mem_recentDevices.mp hstats'
  obtain ⟨-, hrows⟩ := mem_groups.mp hg
  obtain ⟨-, hrows'⟩ := mem_groups.mp hg'
  have hkey : g.1 = g'.1 := hdevice
  have hsublist : g.2.Sublist g'.2 := by
    rw [hrows, hrows', hkey]
    apply List.Sublist.filter
    apply List.monotone_filter_right
    intro row hrow
    have hsince := of_decide_eq_true hrow
    exact decide_eq_true ((hoursBefore_mono hhours).trans hsince)
  exact ⟨hsublist.length_le, hsublist.countP_le, hsublist.countP_le⟩

/-- Where a property only ends along a list, the list is its elements with the property and
then the others. -/
theorem filter_append_filter_not {α : Type*} {p : α → Bool} {l : List α}
    (h : l.Pairwise fun a b => p b → p a) : l = l.filter p ++ l.filter fun a => !p a := by
  induction l with
  | nil => rfl
  | cons a l ih =>
    obtain ⟨hhead, htail⟩ := List.pairwise_cons.mp h
    cases ha : p a with
    | true =>
      simp only [List.filter_cons, ha, Bool.not_true, if_true, Bool.false_eq_true, if_false,
        List.cons_append]
      rw [← ih htail]
    | false =>
      have hnone : ∀ b ∈ l, p b = false := by
        intro b hb
        have himp := hhead b hb
        rw [ha] at himp
        simpa using himp
      have hfilter : l.filter p = [] := by
        rw [List.filter_eq_nil_iff]
        intro b hb
        simp [hnone b hb]
      have hself : (l.filter fun a => !p a) = l := by
        rw [List.filter_eq_self]
        intro b hb
        simp [hnone b hb]
      simp [ha, hfilter, hself]

/-- The devices of the longer window that were seen in the shorter one. -/
def seenSince (since : Int) (stats : VendorStats) : Bool :=
  stats.lastSeen.all fun last => since ≤ last

theorem seenSince_iff {since last : Int} {stats : VendorStats} (h : stats.lastSeen = some last) :
    seenSince since stats ↔ since ≤ last := by
  simp [seenSince, h]

/-- What stands in front of such a device is one. -/
theorem seenSince_of_byKey {since : Int} {a b : VendorStats} (hab : ByKey VendorStats.recency a b)
    (hb : seenSince since b) : seenSince since a := by
  cases hlast : a.lastSeen with
  | none => rw [seenSince, hlast, Option.all_none]
  | some last =>
    cases hlast' : b.lastSeen with
    | none =>
      rw [ByKey, VendorStats.recency, VendorStats.recency, hlast, hlast'] at hab
      exact absurd hab (WithBot.not_coe_le_bot _)
    | some last' =>
      rw [ByKey, VendorStats.recency, VendorStats.recency, hlast, hlast'] at hab
      have hle : last' ≤ last := neg_le_neg_iff.mp (WithBot.coe_le_coe.mp hab)
      exact (seenSince_iff hlast).mpr (((seenSince_iff hlast').mp hb).trans hle)

/-- The longer window, cut where its devices leave the shorter one. -/
theorem recentDevices_split (since : Int) :
    recentDevices store scan' now hours' =
      (recentDevices store scan' now hours').filter (seenSince since) ++
        (recentDevices store scan' now hours').filter fun stats => !seenSince since stats := by
  apply filter_append_filter_not
  apply (isResult_orderBy VendorStats.recency scan' _).2.imp
  intro a b hab hb
  exact seenSince_of_byKey hab hb

/-- The head of the longer window has the sightings of the shorter one. -/
theorem sightings_perm (hhours : (hours : Nat) ≤ hours') :
    (((recentDevices store scan' now hours').filter
      (seenSince (hoursBefore now hours))).map (·.sighting)).Perm
      ((recentDevices store scan now hours).map (·.sighting)) := by
  have hcutoff : hoursBefore now hours' ≤ hoursBefore now hours := hoursBefore_mono hhours
  have hnodup : (((recentDevices store scan' now hours').filter
      (seenSince (hoursBefore now hours))).map (·.sighting)).Nodup :=
    nodup_sightings.sublist (List.filter_sublist.map VendorStats.sighting)
  apply (List.perm_ext_iff_of_nodup hnodup nodup_sightings).mpr
  rintro ⟨device, seen⟩
  rw [mem_sightings]
  constructor
  · intro h
    obtain ⟨stats, hstats, heq⟩ := List.mem_map.mp h
    obtain ⟨hwide, hsince⟩ := List.mem_filter.mp hstats
    have hsighting := List.mem_map_of_mem (f := VendorStats.sighting) hwide
    rw [heq] at hsighting
    obtain ⟨last, rfl, hlast⟩ := mem_sightings.mp hsighting
    have hrecent := (seenSince_iff (congrArg Prod.snd heq)).mp hsince
    exact ⟨last, rfl, (lastSeenSince_iff hcutoff).mpr ⟨hlast, hrecent⟩⟩
  · rintro ⟨last, rfl, hlast⟩
    obtain ⟨hwide, hrecent⟩ := (lastSeenSince_iff hcutoff).mp hlast
    have hlisted : (device, some last) ∈ (recentDevices store scan' now hours').map (·.sighting) :=
      mem_sightings.mpr ⟨last, rfl, hwide⟩
    obtain ⟨stats, hstats, heq⟩ := List.mem_map.mp hlisted
    have hsince := (seenSince_iff (congrArg Prod.snd heq)).mpr hrecent
    exact List.mem_map.mpr ⟨stats, List.mem_filter.mpr ⟨hstats, hsince⟩, heq⟩

def seenRecency (s : (String × String × String) × Option Int) : WithBot Int := s.2.map (-·)

/-- Between the same figures there is one order of the sightings. -/
theorem lastSeen_eq_of_perm {l l' : List VendorStats} (hperm : (l.map (·.sighting)).Perm
    (l'.map (·.sighting))) (h : l.Pairwise (ByKey VendorStats.recency))
    (h' : l'.Pairwise (ByKey VendorStats.recency)) :
    l.map (·.lastSeen) = l'.map (·.lastSeen) := by
  have hrecency : l.map VendorStats.recency = l'.map VendorStats.recency := by
    have hkeys : ((l.map (·.sighting)).map seenRecency).Perm ((l'.map (·.sighting)).map seenRecency) :=
      hperm.map seenRecency
    rw [List.map_map, List.map_map] at hkeys
    exact hkeys.eq_of_pairwise (fun _ _ _ _ => le_antisymm) (List.pairwise_map.mpr h)
      (List.pairwise_map.mpr h')
  have hinjective : Function.Injective fun seen : Option Int => seen.map (-·) :=
    Option.map_injective neg_injective
  apply List.map_injective_iff.mpr hinjective
  rw [List.map_map, List.map_map]
  exact hrecency

variable (store scan scan' now hours hours') in
/-- Over one table and at one time, the rollup over more hours begins with the devices of
the one over fewer hours: the same devices, the same times of the last event in the same
order, and no smaller figures. The devices behind them were last seen before. -/
theorem recentDevices_nested (hhours : (hours : Nat) ≤ hours') :
    ∃ head rest, recentDevices store scan' now hours' = head ++ rest ∧
      (head.map (·.sighting)).Perm ((recentDevices store scan now hours).map (·.sighting)) ∧
      head.map (·.lastSeen) = (recentDevices store scan now hours).map (·.lastSeen) ∧
      (∀ stats ∈ recentDevices store scan now hours, ∀ stats' ∈ head,
        stats.device = stats'.device → stats.total ≤ stats'.total ∧
          stats.crashes ≤ stats'.crashes ∧ stats.errors ≤ stats'.errors) ∧
      ∀ stats ∈ rest, ∃ last, stats.lastSeen = some last ∧ last < hoursBefore now hours := by
  refine ⟨_, _, recentDevices_split (hoursBefore now hours), sightings_perm hhours, ?_, ?_, ?_⟩
  · apply lastSeen_eq_of_perm (sightings_perm hhours)
    · exact (isResult_orderBy VendorStats.recency scan' _).2.filter _
    · exact (isResult_orderBy VendorStats.recency scan _).2
  · intro stats hstats stats' hstats'
    exact figures_mono hhours hstats (List.mem_of_mem_filter hstats')
  · intro stats hstats
    obtain ⟨hwide, hsince⟩ := List.mem_filter.mp hstats
    obtain ⟨last, hseen, -⟩ := mem_sightings.mp (List.mem_map_of_mem hwide)
    refine ⟨last, hseen, ?_⟩
    by_contra hrecent
    rw [(seenSince_iff hseen).mpr (le_of_not_gt hrecent)] at hsince
    cases hsince

/-- A device of the last hour and one of the last day. -/
def dayStore : Store :=
  ⟨[{ minimalRow 1 (-7200000000) with deviceName := "e" }, minimalRow 2 0], by decide⟩

theorem recentDevices_nested_day :
    ∃ head rest, recentDevices dayStore .reverse 0 ⟨24, by decide⟩ = head ++ rest ∧
      (head.map (·.sighting)).Perm
        ((recentDevices dayStore .id 0 ⟨1, by decide⟩).map (·.sighting)) ∧
      head.map (·.lastSeen) = (recentDevices dayStore .id 0 ⟨1, by decide⟩).map (·.lastSeen) ∧
      (∀ stats ∈ recentDevices dayStore .id 0 ⟨1, by decide⟩, ∀ stats' ∈ head,
        stats.device = stats'.device → stats.total ≤ stats'.total ∧
          stats.crashes ≤ stats'.crashes ∧ stats.errors ≤ stats'.errors) ∧
      ∀ stats ∈ rest, ∃ last, stats.lastSeen = some last ∧ last < hoursBefore 0 1 :=
  recentDevices_nested dayStore .id .reverse 0 ⟨1, by decide⟩ ⟨24, by decide⟩ (by decide)

/-! ## The timeline -/

section

variable {store : Store} {plan plan' : Scan StatsBucket} {now : Int}
  {hours hours' : Bounded 1 (24 * 30)} {bucketMinutes : Bounded 1 (60 * 24)}
  {kind : Option EventKind}

theorem timelineRows_subset (h : (hours : Nat) ≤ hours') :
    timelineRows store (hoursBefore now hours) kind ⊆
      timelineRows store (hoursBefore now hours') kind := by
  intro row hrow
  obtain ⟨hmem, hsince, hkind⟩ := mem_timelineRows.mp hrow
  exact mem_timelineRows.mpr ⟨hmem, (hoursBefore_mono h).trans hsince, hkind⟩

def bucketsBefore (instant : Int) (buckets : List StatsBucket) : List StatsBucket :=
  buckets.filter fun b => b.bucket < instant

def bucketsFrom (instant : Int) (buckets : List StatsBucket) : List StatsBucket :=
  buckets.filter fun b => instant ≤ b.bucket

theorem mem_bucketsBefore {instant : Int} {buckets : List StatsBucket} {b : StatsBucket} :
    b ∈ bucketsBefore instant buckets ↔ b ∈ buckets ∧ b.bucket < instant := by
  simp [bucketsBefore]

theorem mem_bucketsFrom {instant : Int} {buckets : List StatsBucket} {b : StatsBucket} :
    b ∈ bucketsFrom instant buckets ↔ b ∈ buckets ∧ instant ≤ b.bucket := by
  simp [bucketsFrom]

theorem timeline_split (instant : Int) :
    timeline store plan now hours bucketMinutes kind =
      bucketsBefore instant (timeline store plan now hours bucketMinutes kind) ++
        bucketsFrom instant (timeline store plan now hours bucketMinutes kind) := by
  have hsplit := filter_append_filter_not (p := fun b : StatsBucket => b.bucket < instant)
    (timeline_increasing.imp fun hlt hb => decide_eq_true (hlt.trans (of_decide_eq_true hb)))
    (l := timeline store plan now hours bucketMinutes kind)
  simp only [← decide_not, not_lt] at hsplit
  exact hsplit

/-- A bucket behind the beginning of the shorter window has the same rows in both. -/
theorem timelineRows_later (h : (hours : Nat) ≤ hours') {start : Int}
    (hstart : hoursBefore now hours ≤ start) :
    (timelineRows store (hoursBefore now hours) kind).filter
        (fun row => binStart (minutes bucketMinutes) row.ts = start) =
      (timelineRows store (hoursBefore now hours') kind).filter
        fun row => binStart (minutes bucketMinutes) row.ts = start := by
  rw [timelineRows_eq_filter, timelineRows_eq_filter, List.filter_filter, List.filter_filter]
  apply List.filter_congr
  intro row _
  by_cases hbin : binStart (minutes bucketMinutes) row.ts = start
  · have hle := binStart_le (minutes_pos bucketMinutes) row.ts
    have hsince : hoursBefore now hours ≤ row.ts := by omega
    have hsince' : hoursBefore now hours' ≤ row.ts := (hoursBefore_mono h).trans hsince
    simp [hsince, hsince']
  · simp [hbin]

/-- A bucket is one with rows, and counts them. -/
theorem mem_timeline_iff_count {b : StatsBucket} :
    b ∈ timeline store plan now hours bucketMinutes kind ↔
      0 < b.count ∧ b.count = ((timelineRows store (hoursBefore now hours) kind).filter fun row =>
        binStart (minutes bucketMinutes) row.ts = b.bucket).length := by
  rw [mem_timeline]
  apply and_congr_left
  intro hcount
  rw [hcount, List.length_filter_pos_iff]
  simp only [decide_eq_true_eq]

variable (plan plan') in
theorem mem_timeline_later (h : (hours : Nat) ≤ hours') {b : StatsBucket}
    (hb : hoursBefore now hours ≤ b.bucket) :
    b ∈ timeline store plan now hours bucketMinutes kind ↔
      b ∈ timeline store plan' now hours' bucketMinutes kind := by
  rw [mem_timeline_iff_count, mem_timeline_iff_count, timelineRows_later h hb]

theorem bucketsFrom_increasing (instant : Int) :
    (bucketsFrom instant (timeline store plan now hours bucketMinutes kind)).Pairwise
      fun a b => a.bucket < b.bucket :=
  timeline_increasing.filter _

theorem bucketsFrom_nodup (instant : Int) :
    (bucketsFrom instant (timeline store plan now hours bucketMinutes kind)).Nodup := by
  apply (bucketsFrom_increasing instant).imp
  rintro a b hlt rfl
  exact lt_irrefl _ hlt

variable (plan plan') in
/-- From the beginning of the shorter window on, the timelines are the same. -/
theorem bucketsFrom_eq (h : (hours : Nat) ≤ hours') :
    bucketsFrom (hoursBefore now hours) (timeline store plan now hours bucketMinutes kind) =
      bucketsFrom (hoursBefore now hours)
        (timeline store plan' now hours' bucketMinutes kind) := by
  have hperm : (bucketsFrom (hoursBefore now hours)
      (timeline store plan now hours bucketMinutes kind)).Perm
        (bucketsFrom (hoursBefore now hours)
          (timeline store plan' now hours' bucketMinutes kind)) := by
    apply (List.perm_ext_iff_of_nodup (bucketsFrom_nodup _) (bucketsFrom_nodup _)).mpr
    intro b
    rw [mem_bucketsFrom, mem_bucketsFrom]
    apply and_congr_left
    intro hb
    exact mem_timeline_later plan plan' h hb
  apply hperm.eq_of_pairwise _ (bucketsFrom_increasing _) (bucketsFrom_increasing _)
  intro a b _ _ hab hba
  exact absurd (hab.trans hba) (lt_irrefl _)

/-- A bucket that begins before its window is the one in which the window begins. -/
theorem bucket_of_lt {b : StatsBucket} (hb : b ∈ timeline store plan now hours bucketMinutes kind)
    (hlt : b.bucket < hoursBefore now hours) :
    b.bucket = binStart (minutes bucketMinutes) (hoursBefore now hours) := by
  obtain ⟨⟨row, hrow, hbin⟩, -⟩ := mem_timeline.mp hb
  obtain ⟨-, hsince, -⟩ := mem_timelineRows.mp hrow
  have hend := lt_binStart_add (minutes_pos bucketMinutes) row.ts
  rw [hbin] at hend
  exact ((binStart_eq_iff (minutes_pos bucketMinutes)).mpr
    ⟨dvd_bucket hb, hlt.le, by omega⟩).symm

variable (plan') in
/-- The longer window counts no less in a bucket. -/
theorem exists_bucket_le (h : (hours : Nat) ≤ hours') {b : StatsBucket}
    (hb : b ∈ timeline store plan now hours bucketMinutes kind) :
    ∃ b' ∈ timeline store plan' now hours' bucketMinutes kind,
      b'.bucket = b.bucket ∧ b.count ≤ b'.count := by
  obtain ⟨⟨row, hrow, hbin⟩, hcount⟩ := mem_timeline.mp hb
  obtain ⟨b', hb', hbucket⟩ : ∃ b' ∈ timeline store plan' now hours' bucketMinutes kind,
      b'.bucket = binStart (minutes bucketMinutes) row.ts :=
    exists_bucket (timelineRows_subset h hrow)
  rw [hbin] at hbucket
  refine ⟨b', hb', hbucket, ?_⟩
  rw [hcount, (mem_timeline.mp hb').2, hbucket, timelineRows_eq_filter, timelineRows_eq_filter,
    List.filter_filter, List.filter_filter]
  apply (List.monotone_filter_right _ _).length_le
  intro other hother
  have hcutoff : hoursBefore now hours' ≤ hoursBefore now hours := hoursBefore_mono h
  simp only [Bool.and_eq_true, decide_eq_true_eq] at hother ⊢
  exact ⟨hother.1, hcutoff.trans hother.2.1, hother.2.2⟩

/-- Of buckets in their order, the one with the latest beginning is the last. -/
theorem getLast?_of_increasing {l : List StatsBucket}
    (h : l.Pairwise fun a b => a.bucket < b.bucket) {b : StatsBucket} (hb : b ∈ l)
    (hmax : ∀ a ∈ l, a.bucket ≤ b.bucket) : l.getLast? = some b := by
  obtain ⟨before, after, rfl⟩ := List.append_of_mem hb
  cases after with
  | nil => exact List.getLast?_concat
  | cons a after =>
    have hlt : b.bucket < a.bucket :=
      (List.pairwise_cons.mp (List.pairwise_append.mp h).2.1).1 a List.mem_cons_self
    exact absurd (hmax a (by simp)) (not_le_of_gt hlt)

theorem length_le_one_of_increasing {l : List StatsBucket}
    (h : l.Pairwise fun a b => a.bucket < b.bucket) {start : Int}
    (hstart : ∀ b ∈ l, b.bucket = start) : l.length ≤ 1 := by
  cases l with
  | nil => exact Nat.zero_le 1
  | cons a l =>
    cases l with
    | nil => exact Nat.le_refl 1
    | cons b l =>
      have hlt : a.bucket < b.bucket := (List.pairwise_cons.mp h).1 b List.mem_cons_self
      rw [hstart a (by simp), hstart b (by simp)] at hlt
      exact absurd hlt (lt_irrefl _)

variable (store plan plan' now hours hours' bucketMinutes kind) in
/-- Over one table and at one time, the timelines of two windows end in the same buckets.
In front of them the shorter one has at most the bucket in which it begins; the longer one
has there older buckets, and that one is the last of them and counts no less. -/
theorem timeline_nested (h : (hours : Nat) ≤ hours') :
    ∃ older cut rest, timeline store plan' now hours' bucketMinutes kind = older ++ rest ∧
      timeline store plan now hours bucketMinutes kind = cut ++ rest ∧
      (∀ b ∈ rest, hoursBefore now hours ≤ b.bucket) ∧
      (∀ b ∈ older, b.bucket < hoursBefore now hours) ∧ cut.length ≤ 1 ∧
      ∀ b ∈ cut, b.bucket = binStart (minutes bucketMinutes) (hoursBefore now hours) ∧
        ∃ b', older.getLast? = some b' ∧ b'.bucket = b.bucket ∧ b.count ≤ b'.count := by
  have hcut : ∀ b ∈ bucketsBefore (hoursBefore now hours)
      (timeline store plan now hours bucketMinutes kind),
      b.bucket = binStart (minutes bucketMinutes) (hoursBefore now hours) := by
    intro b hb
    obtain ⟨hmem, hlt⟩ := mem_bucketsBefore.mp hb
    exact bucket_of_lt hmem hlt
  have hsplit : timeline store plan now hours bucketMinutes kind =
      bucketsBefore (hoursBefore now hours) (timeline store plan now hours bucketMinutes kind) ++
        bucketsFrom (hoursBefore now hours)
          (timeline store plan' now hours' bucketMinutes kind) := by
    rw [← bucketsFrom_eq plan plan' h]
    exact timeline_split (hoursBefore now hours)
  refine ⟨_, _, _, timeline_split (hoursBefore now hours), hsplit, ?_, ?_, ?_, ?_⟩
  · intro b hb
    exact (mem_bucketsFrom.mp hb).2
  · intro b hb
    exact (mem_bucketsBefore.mp hb).2
  · exact length_le_one_of_increasing (timeline_increasing.filter _) hcut
  · intro b hb
    have hbucket := hcut b hb
    obtain ⟨hmem, hlt⟩ := mem_bucketsBefore.mp hb
    obtain ⟨b', hb', hsame, hcount⟩ := exists_bucket_le plan' h hmem
    refine ⟨hbucket, b', ?_, hsame, hcount⟩
    apply getLast?_of_increasing (timeline_increasing.filter _)
    · exact mem_bucketsBefore.mpr ⟨hb', hsame ▸ hlt⟩
    · intro a ha
      obtain ⟨hwide, hbefore⟩ := mem_bucketsBefore.mp ha
      have hend := lt_binStart_add (minutes_pos bucketMinutes) (hoursBefore now hours)
      rw [hsame, hbucket]
      by_contra hlater
      -- both begin at multiples of the width
      have heq := eq_of_dvd_of_lt (dvd_bucket hwide)
        (dvd_binStart (minutes bucketMinutes) (hoursBefore now hours)) (by omega) (by omega)
      omega

end

/-- The last hour of `dayStore` and its last day, in buckets of two hours. -/
theorem timeline_nested_day :
    ∃ older cut rest, timeline dayStore .id 0 ⟨24, by decide⟩ ⟨120, by decide⟩ none = older ++ rest ∧
      timeline dayStore .id 0 ⟨1, by decide⟩ ⟨120, by decide⟩ none = cut ++ rest ∧
      (∀ b ∈ rest, hoursBefore 0 1 ≤ b.bucket) ∧
      (∀ b ∈ older, b.bucket < hoursBefore 0 1) ∧ cut.length ≤ 1 ∧
      ∀ b ∈ cut, b.bucket = binStart (minutes 120) (hoursBefore 0 1) ∧
        ∃ b', older.getLast? = some b' ∧ b'.bucket = b.bucket ∧ b.count ≤ b'.count :=
  timeline_nested dayStore .id .id 0 ⟨1, by decide⟩ ⟨24, by decide⟩ ⟨120, by decide⟩ none
    (by decide)

end TelemetryApi
