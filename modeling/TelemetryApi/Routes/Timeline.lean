import TelemetryApi.Foundations.Bins
import TelemetryApi.Routes.Stats

/-!
# The buckets of the timeline

What each bucket of `GET /v1/stats/timeline` counts, and how the buckets of one width
are made of those of another.
-/

namespace TelemetryApi

/-- Minutes in microseconds. -/
def minutes (n : Nat) : Int := n * 60000000

theorem bucketOf_eq_binStart (bucketMinutes : Nat) (row : Event) :
    bucketOf bucketMinutes row = binStart (minutes bucketMinutes) row.ts := by
  rw [bucketOf, dateBin, binStart, minutes, Int.zero_add, Int.sub_zero]

theorem minutes_pos (bucketMinutes : Bounded 1 (60 * 24)) : 0 < minutes bucketMinutes := by
  have h := bucketMinutes.property.1
  rw [minutes]
  omega

/-- The buckets are those of the width that have an event, in their order, and each
counts its events. -/
structure TimelineLaw (store : Store) (since : Int) (kind : Option EventKind) (width : Int)
    (buckets : List StatsBucket) : Prop where
  increasing : buckets.Pairwise fun a b => a.bucket < b.bucket
  aligned : ∀ b ∈ buckets, width ∣ b.bucket
  positive : ∀ b ∈ buckets, 0 < b.count
  count_eq : ∀ b ∈ buckets, b.count = store.rows.countP fun row =>
    decide (since ≤ row.ts) && kind.all (row.kind = ·) &&
      decide (b.bucket ≤ row.ts ∧ row.ts < b.bucket + width)
  covers : ∀ row ∈ store.rows, since ≤ row.ts → (∀ k ∈ kind, row.kind = k) →
    ∃! b, b ∈ buckets ∧ b.bucket ≤ row.ts ∧ row.ts < b.bucket + width

section

variable {store : Store} {scan : Scan StatsBucket} {now : Int} {hours : Bounded 1 (24 * 30)}
  {bucketMinutes : Bounded 1 (60 * 24)} {kind : Option EventKind}

theorem timelineRows_eq_filter (store : Store) (since : Int) (kind : Option EventKind) :
    timelineRows store since kind =
      store.rows.filter fun row => decide (since ≤ row.ts) && kind.all (row.kind = ·) := by
  cases kind with
  | none => simp [timelineRows, Store.since]
  | some kind => simp [timelineRows, Store.since, List.filter_filter, Bool.and_comm]

theorem mem_timelineRows {since : Int} {row : Event} :
    row ∈ timelineRows store since kind ↔
      row ∈ store.rows ∧ since ≤ row.ts ∧ ∀ k ∈ kind, row.kind = k := by
  rw [timelineRows_eq_filter, List.mem_filter]
  simp [Option.all_eq_true]

theorem timeline_perm :
    (timeline store scan now hours bucketMinutes kind).Perm
      ((groups (bucketOf bucketMinutes) (timelineRows store (hoursBefore now hours) kind)).map
        fun g => ⟨g.1, g.2.length⟩) :=
  (isResult_orderBy _ _ _).1

/-- A bucket is a group of the rows, by the bin of their timestamp. -/
theorem mem_timeline {b : StatsBucket} :
    b ∈ timeline store scan now hours bucketMinutes kind ↔
      (∃ row ∈ timelineRows store (hoursBefore now hours) kind,
        binStart (minutes bucketMinutes) row.ts = b.bucket) ∧
      b.count = ((timelineRows store (hoursBefore now hours) kind).filter fun row =>
        binStart (minutes bucketMinutes) row.ts = b.bucket).length := by
  rw [timeline_perm.mem_iff, List.mem_map]
  constructor
  · rintro ⟨g, hg, rfl⟩
    obtain ⟨⟨row, hrow, hkey⟩, hmembers⟩ := mem_groups.mp hg
    refine ⟨⟨row, hrow, ?_⟩, ?_⟩
    · rw [← bucketOf_eq_binStart]
      exact hkey
    · simp only [hmembers, bucketOf_eq_binStart]
  · rintro ⟨⟨row, hrow, hkey⟩, hcount⟩
    refine ⟨(b.bucket, (timelineRows store (hoursBefore now hours) kind).filter fun other =>
      bucketOf bucketMinutes other = b.bucket), mem_groups.mpr ⟨⟨row, hrow, ?_⟩, rfl⟩, ?_⟩
    · rw [bucketOf_eq_binStart]
      exact hkey
    · simp only [bucketOf_eq_binStart, ← hcount]

theorem dvd_bucket {b : StatsBucket} (hb : b ∈ timeline store scan now hours bucketMinutes kind) :
    minutes bucketMinutes ∣ b.bucket := by
  obtain ⟨⟨row, -, hkey⟩, -⟩ := mem_timeline.mp hb
  rw [← hkey]
  exact dvd_binStart _ _

theorem exists_bucket {row : Event}
    (h : row ∈ timelineRows store (hoursBefore now hours) kind) :
    ∃ b ∈ timeline store scan now hours bucketMinutes kind,
      b.bucket = binStart (minutes bucketMinutes) row.ts := by
  have hgroup : ⟨binStart (minutes bucketMinutes) row.ts,
      ((timelineRows store (hoursBefore now hours) kind).filter fun other =>
        binStart (minutes bucketMinutes) other.ts =
          binStart (minutes bucketMinutes) row.ts).length⟩ ∈
      timeline store scan now hours bucketMinutes kind :=
    mem_timeline.mpr ⟨⟨row, h, rfl⟩, rfl⟩
  exact ⟨_, hgroup, rfl⟩

theorem eq_of_bucket_eq {a b : StatsBucket}
    (ha : a ∈ timeline store scan now hours bucketMinutes kind)
    (hb : b ∈ timeline store scan now hours bucketMinutes kind) (h : a.bucket = b.bucket) :
    a = b := by
  have hcount : a.count = b.count := by rw [(mem_timeline.mp ha).2, (mem_timeline.mp hb).2, h]
  cases a
  cases b
  exact congrArg₂ StatsBucket.mk h hcount

theorem timeline_increasing :
    (timeline store scan now hours bucketMinutes kind).Pairwise fun a b => a.bucket < b.bucket := by
  have hsorted := (isResult_orderBy StatsBucket.bucket scan
    ((groups (bucketOf bucketMinutes) (timelineRows store (hoursBefore now hours) kind)).map
      fun g => (⟨g.1, g.2.length⟩ : StatsBucket))).2
  have hnodup : ((timeline store scan now hours bucketMinutes kind).map (·.bucket)).Nodup := by
    rw [(timeline_perm.map _).nodup_iff, List.map_map]
    have hkeys := nodup_distinct (bucketOf bucketMinutes)
      (timelineRows store (hoursBefore now hours) kind)
    rw [← groups_keys] at hkeys
    exact hkeys
  rw [List.Nodup, List.pairwise_map] at hnodup
  apply (hsorted.and hnodup).imp
  rintro a b ⟨hle, hne⟩
  exact lt_of_le_of_ne hle hne

theorem timelineLaw :
    TimelineLaw store (hoursBefore now hours) kind (minutes bucketMinutes)
      (timeline store scan now hours bucketMinutes kind) where
  increasing := timeline_increasing
  aligned _ hb := dvd_bucket hb
  positive b hb := by
    obtain ⟨⟨row, hrow, hkey⟩, hcount⟩ := mem_timeline.mp hb
    rw [hcount]
    exact List.length_pos_of_mem (List.mem_filter.mpr ⟨hrow, decide_eq_true hkey⟩)
  count_eq b hb := by
    rw [(mem_timeline.mp hb).2, timelineRows_eq_filter, ← List.countP_eq_length_filter,
      List.countP_filter]
    apply List.countP_congr
    intro row _
    simp only [binStart_eq_iff (minutes_pos bucketMinutes), dvd_bucket hb, true_and, Bool.and_comm]
  covers row hrow hsince hkind := by
    have hmem : row ∈ timelineRows store (hoursBefore now hours) kind :=
      mem_timelineRows.mpr ⟨hrow, hsince, hkind⟩
    obtain ⟨b, hb, hstart⟩ : ∃ b ∈ timeline store scan now hours bucketMinutes kind,
        b.bucket = binStart (minutes bucketMinutes) row.ts := exists_bucket hmem
    refine ⟨b, ⟨hb, ?_, ?_⟩, ?_⟩
    · rw [hstart]
      exact binStart_le (minutes_pos bucketMinutes) row.ts
    · rw [hstart]
      exact lt_binStart_add (minutes_pos bucketMinutes) row.ts
    · rintro b' ⟨hb', hle, hlt⟩
      have hstart' := (binStart_eq_iff (minutes_pos bucketMinutes)).mpr ⟨dvd_bucket hb', hle, hlt⟩
      exact eq_of_bucket_eq hb' hb (hstart'.symm.trans hstart.symm)

/-- A wide bucket counts what the narrow buckets that begin inside it count. -/
theorem count_wide {k : Nat} {wide : Bounded 1 (60 * 24)} {widePlan : Scan StatsBucket}
    (hwide : (wide : Nat) = k * bucketMinutes) {b : StatsBucket}
    (hb : b ∈ timeline store widePlan now hours wide kind) :
    b.count = (((timeline store scan now hours bucketMinutes kind).filter fun narrow =>
      b.bucket ≤ narrow.bucket ∧ narrow.bucket < b.bucket + minutes wide).map (·.count)).sum := by
  have hdvd : minutes bucketMinutes ∣ minutes wide := by
    rw [minutes, minutes, hwide, Nat.cast_mul, Int.mul_assoc]
    exact Int.dvd_mul_left _ _
  rw [((timeline_perm.filter _).map _).sum_eq, List.filter_map, List.map_map, (mem_timeline.mp hb).2,
    ← sum_length_narrow Event.ts (minutes_pos bucketMinutes) (minutes_pos wide) hdvd
      (dvd_bucket hb)]
  simp only [Function.comp_def, ← bucketOf_eq_binStart]

end

/-- The buckets of the timeline partition the events of the window, and those of a
multiple of the width are unions of them. -/
theorem timeline_buckets (store : Store) (scan : Scan StatsBucket) (now : Int)
    (hours : Bounded 1 (24 * 30)) (bucketMinutes : Bounded 1 (60 * 24)) (kind : Option EventKind) :
    TimelineLaw store (hoursBefore now hours) kind (minutes bucketMinutes)
        (timeline store scan now hours bucketMinutes kind) ∧
      ∀ (k : Nat) (wide : Bounded 1 (60 * 24)) (widePlan : Scan StatsBucket),
        (wide : Nat) = k * bucketMinutes →
        ∀ b ∈ timeline store widePlan now hours wide kind,
          b.count = (((timeline store scan now hours bucketMinutes kind).filter fun narrow =>
            b.bucket ≤ narrow.bucket ∧ narrow.bucket < b.bucket + minutes wide).map
              (·.count)).sum :=
  ⟨timelineLaw, fun _ _ _ hwide _ hb => count_wide hwide hb⟩

end TelemetryApi
