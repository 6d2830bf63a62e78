import TelemetryApi.Routes.Listing

/-!
# The stats routes

`GET /v1/stats/recent` and `GET /v1/stats/timeline` of `app/routes/stats.py`, and
how their figures agree with those of the listing routes: each grouping is a
partition of the rows since one instant.
-/

namespace TelemetryApi

structure VendorStats where
  vendor : String
  deviceName : String
  deviceVersion : String
  total : Nat
  crashes : Nat
  errors : Nat
  lastSeen : Option Int

structure StatsBucket where
  bucket : Int
  count : Nat

/-- The columns that `recent_devices` groups by. -/
def Event.device (row : Event) : String × String × String :=
  (row.vendor, row.deviceName, row.deviceVersion)

def VendorStats.device (stats : VendorStats) : String × String × String :=
  (stats.vendor, stats.deviceName, stats.deviceVersion)

/-- The aggregates of one group. -/
def vendorStats (g : (String × String × String) × List Event) : VendorStats where
  vendor := g.1.1
  deviceName := g.1.2.1
  deviceVersion := g.1.2.2
  total := g.2.length
  crashes := g.2.countP fun row => row.kind = .crash
  errors := g.2.countP fun row => row.kind = .error
  lastSeen := (g.2.map (·.ts)).max?

/-- `desc("last_seen")`: descending, nulls first. -/
def VendorStats.recency (stats : VendorStats) : WithBot Int := stats.lastSeen.map (-·)

/-- `recent_devices` -/
def recentDevices (store : Store) (scan : Scan VendorStats) (now : Int)
    (hours : Bounded 1 (24 * 30)) : List VendorStats :=
  orderBy VendorStats.recency scan
    ((groups Event.device (store.since (hoursBefore now hours))).map vendorStats)

/-- `date_bin(stride, ts, origin)` -/
def dateBin (stride ts origin : Int) : Int := origin + stride * ((ts - origin) / stride)

example : dateBin 900000000 (-1) 0 = -900000000 := by decide

/-- The bucket of an event, for a width in minutes. -/
def bucketOf (bucketMinutes : Nat) (row : Event) : Int :=
  dateBin (bucketMinutes * 60000000) row.ts 0

/-- The rows that `timeline` counts. -/
def timelineRows (store : Store) (since : Int) (kind : Option EventKind) : List Event :=
  match kind with
  | none => store.since since
  | some kind => (store.since since).filter fun row => row.kind = kind

/-- `timeline` -/
def timeline (store : Store) (scan : Scan StatsBucket) (now : Int) (hours : Bounded 1 (24 * 30))
    (bucketMinutes : Bounded 1 (60 * 24)) (kind : Option EventKind) : List StatsBucket :=
  orderBy StatsBucket.bucket scan
    ((groups (bucketOf bucketMinutes) (timelineRows store (hoursBefore now hours) kind)).map
      fun g => ⟨g.1, g.2.length⟩)

/-! ## Devices -/

section

variable {store : Store} {scan : Scan VendorStats} {now : Int} {hours : Bounded 1 (24 * 30)}

theorem recentDevices_perm :
    (recentDevices store scan now hours).Perm
      ((groups Event.device (store.since (hoursBefore now hours))).map vendorStats) :=
  (isResult_orderBy _ _ _).1

theorem mem_recentDevices {stats : VendorStats} :
    stats ∈ recentDevices store scan now hours ↔
      ∃ g ∈ groups Event.device (store.since (hoursBefore now hours)), vendorStats g = stats := by
  rw [recentDevices_perm.mem_iff, List.mem_map]

/-- What each group counts adds up to what all rows count. -/
theorem sum_recentDevices (figure : VendorStats → Nat) (p : Event → Bool)
    (hfigure : ∀ g, figure (vendorStats g) = g.2.countP p) :
    ((recentDevices store scan now hours).map figure).sum =
      (store.since (hoursBefore now hours)).countP p := by
  rw [(recentDevices_perm.map figure).sum_eq, List.map_map]
  simp only [Function.comp_def, hfigure]
  exact sum_countP_groups _ p _

theorem recentDevices_nodup : ((recentDevices store scan now hours).map (·.device)).Nodup := by
  rw [(recentDevices_perm.map _).nodup_iff, List.map_map]
  have hkeys := nodup_distinct Event.device (store.since (hoursBefore now hours))
  rw [← groups_keys] at hkeys
  exact hkeys

/-- Crashes and errors are different events of the group. -/
theorem crashes_add_errors_le (g : (String × String × String) × List Event) :
    (vendorStats g).crashes + (vendorStats g).errors ≤ (vendorStats g).total := by
  simp only [vendorStats]
  induction g.2 with
  | nil => simp
  | cons row rows ih =>
    simp only [List.countP_cons, List.length_cons]
    cases row.kind <;> simp <;> omega

/-- The last time a device was seen is the greatest timestamp of its group. -/
theorem lastSeen_isGreatest {stats : VendorStats}
    (h : stats ∈ recentDevices store scan now hours) :
    ∃ last, stats.lastSeen = some last ∧
      IsGreatest {ts | ∃ row ∈ store.since (hoursBefore now hours),
        row.device = stats.device ∧ row.ts = ts} last := by
  obtain ⟨g, hg, rfl⟩ := mem_recentDevices.mp h
  obtain ⟨-, hmembers⟩ := mem_groups.mp hg
  have hne : g.2.map (·.ts) ≠ [] := by simpa using ne_nil_of_mem_groups hg
  obtain ⟨last, hlast⟩ := Option.isSome_iff_exists.mp (List.isSome_max?_of_ne_nil hne)
  obtain ⟨hmem, hbound⟩ := List.max?_eq_some_iff.mp hlast
  have hgroup : ∀ row, row ∈ g.2 ↔
      row ∈ store.since (hoursBefore now hours) ∧ row.device = (vendorStats g).device := by
    intro row
    rw [hmembers, List.mem_filter, decide_eq_true_iff]
    rfl
  refine ⟨last, hlast, ?_, ?_⟩
  · obtain ⟨row, hrow, hts⟩ := List.mem_map.mp hmem
    exact ⟨row, ((hgroup row).mp hrow).1, ((hgroup row).mp hrow).2, hts⟩
  · -- every row of the device is in its group
    rintro _ ⟨row, hrow, hdevice, rfl⟩
    exact hbound _ (List.mem_map_of_mem ((hgroup row).mpr ⟨hrow, hdevice⟩))

theorem recentDevices_sorted :
    (recentDevices store scan now hours).Pairwise fun a b =>
      ∀ last ∈ a.lastSeen, ∀ last' ∈ b.lastSeen, last' ≤ last := by
  apply (isResult_orderBy VendorStats.recency scan _).2.imp
  intro a b hab last hlast last' hlast'
  simp only [ByKey, VendorStats.recency, Option.mem_def.mp hlast, Option.mem_def.mp hlast'] at hab
  exact neg_le_neg_iff.mp (WithBot.coe_le_coe.mp hab)

/-- A vendor that is not empty is offered as a filter exactly when some device of it
is listed. -/
theorem mem_facets_vendor_iff {κ : Type} [LinearOrder κ] {collation : String → κ}
    {vendor : String} (h : vendor ≠ "") :
    vendor ∈ distinctTexts store collation (hoursBefore now hours) (·.vendor) ↔
      ∃ stats ∈ recentDevices store scan now hours, stats.vendor = vendor := by
  rw [mem_distinctTexts]
  constructor
  · rintro ⟨-, row, hrow, rfl⟩
    have hgroup : (row.device, (store.since (hoursBefore now hours)).filter
        fun other => other.device = row.device) ∈
        groups Event.device (store.since (hoursBefore now hours)) :=
      mem_groups.mpr ⟨⟨row, hrow, rfl⟩, rfl⟩
    exact ⟨_, mem_recentDevices.mpr ⟨_, hgroup, rfl⟩, rfl⟩
  · rintro ⟨stats, hstats, rfl⟩
    obtain ⟨g, hg, rfl⟩ := mem_recentDevices.mp hstats
    obtain ⟨⟨row, hrow, hdevice⟩, -⟩ := mem_groups.mp hg
    exact ⟨h, row, hrow, congrArg Prod.fst hdevice⟩

end

/-! ## Figures -/

/-- The rows since an instant, of one kind if one is given, counted in the store. -/
def Store.count (store : Store) (since : Int) (kind : Option EventKind) : Nat :=
  store.rows.countP fun row => decide (since ≤ row.ts) && kind.all (row.kind = ·)

theorem length_timelineRows (store : Store) (since : Int) (kind : Option EventKind) :
    (timelineRows store since kind).length = store.count since kind := by
  cases kind with
  | none => simp [timelineRows, Store.since, Store.count, List.countP_eq_length_filter]
  | some kind =>
    simp [timelineRows, Store.since, Store.count, List.countP_eq_length_filter, List.filter_filter,
      Bool.and_comm]

/-- The buckets are a partition of the counted rows, whatever their width. -/
theorem sum_timeline (store : Store) (scan : Scan StatsBucket) (now : Int)
    (hours : Bounded 1 (24 * 30)) (bucketMinutes : Bounded 1 (60 * 24))
    (kind : Option EventKind) :
    ((timeline store scan now hours bucketMinutes kind).map (·.count)).sum =
      store.count (hoursBefore now hours) kind := by
  rw [timeline, ((isResult_orderBy _ _ _).1.map _).sum_eq, List.map_map, ← length_timelineRows]
  exact sum_length_groups _ _

/-- The parameters of a request for the list with only `since` and, if one is given,
a kind. -/
def sinceParams (since : Int) (kind : Option EventKind) (order : SortOrder)
    (limit : Bounded 1 500) (offset : Nat) : ListParams :=
  { since := some since, kind := kind.toList, order := order, limit := limit, offset := offset }

theorem sinceParams_selects (since : Int) (kind : Option EventKind) (order : SortOrder)
    (limit : Bounded 1 500) (offset : Nat) (row : Event) :
    (sinceParams since kind order limit offset).selects row =
      (decide (since ≤ row.ts) && kind.all (row.kind = ·)) := by
  cases kind <;>
    simp [sinceParams, ListParams.selects, textFilter, choiceFilter, searchFilter, Bool.and_comm]

theorem total_listEvents_since (store : Store) (scan : Scan Event) (since : Int)
    (kind : Option EventKind) (order : SortOrder) (limit : Bounded 1 500) (offset : Nat) :
    (listEvents store scan (sinceParams since kind order limit offset)).total =
      store.count since kind := by
  rw [Store.count, List.countP_eq_length_filter]
  simp only [listEvents, Store.select, funext (sinceParams_selects since kind order limit offset)]

theorem countP_since (store : Store) (since : Int) (kind : EventKind) :
    (store.since since).countP (fun row => row.kind = kind) = store.count since (some kind) := by
  simp [Store.since, Store.count, List.countP_filter, Bool.and_comm]

/-- What the routes show of the rows since one cut-off: the devices, the buckets and
the total of the list for each kind or none, and the vendors of the facets. -/
structure Agreement (store : Store) (cutoff : Int) (devices : List VendorStats)
    (buckets : Option EventKind → List StatsBucket) (listed : Option EventKind → Nat)
    (vendors : List String) : Prop where
  sum_total : (devices.map (·.total)).sum = store.count cutoff none
  sum_crashes : (devices.map (·.crashes)).sum = store.count cutoff (some .crash)
  sum_errors : (devices.map (·.errors)).sum = store.count cutoff (some .error)
  sum_buckets : ∀ kind, ((buckets kind).map (·.count)).sum = store.count cutoff kind
  listed_eq : ∀ kind, listed kind = store.count cutoff kind
  devices_nodup : (devices.map (·.device)).Nodup
  crashes_add_errors_le : ∀ stats ∈ devices, stats.crashes + stats.errors ≤ stats.total
  lastSeen_isGreatest : ∀ stats ∈ devices, ∃ last, stats.lastSeen = some last ∧
    IsGreatest {ts | ∃ row ∈ store.since cutoff, row.device = stats.device ∧ row.ts = ts} last
  sorted : devices.Pairwise fun a b => ∀ last ∈ a.lastSeen, ∀ last' ∈ b.lastSeen, last' ≤ last
  mem_vendors : ∀ vendor ≠ "", (vendor ∈ vendors ↔ ∃ stats ∈ devices, stats.vendor = vendor)

/-- The hours of the stats routes are within the bounds of the facets. -/
def facetHours (hours : Bounded 1 (24 * 30)) : Bounded 1 (24 * 90) :=
  ⟨hours, hours.property.1, hours.property.2.trans (by decide)⟩

/-- For one cut-off the four routes agree, whatever the width of the buckets, the page
of the list and the plans of the queries are. -/
theorem dashboards_agree {κ : Type} [LinearOrder κ] (store : Store) (now : Int)
    (hours : Bounded 1 (24 * 30)) (bucketMinutes : Bounded 1 (60 * 24))
    (devicePlan : Scan VendorStats) (bucketPlan : Scan StatsBucket) (eventPlan : Scan Event)
    (collation : String → κ) (order : SortOrder) (limit : Bounded 1 500) (offset : Nat) :
    Agreement store (hoursBefore now hours) (recentDevices store devicePlan now hours)
      (timeline store bucketPlan now hours bucketMinutes)
      (fun kind => (listEvents store eventPlan
        (sinceParams (hoursBefore now hours) kind order limit offset)).total)
      (eventFacets store collation now (facetHours hours)).vendor where
  sum_total := by
    rw [sum_recentDevices (·.total) (fun _ => true) fun g => by simp [vendorStats]]
    simp [Store.since, Store.count, List.countP_eq_length_filter]
  sum_crashes := by
    rw [sum_recentDevices (·.crashes) _ fun _ => rfl, countP_since]
  sum_errors := by
    rw [sum_recentDevices (·.errors) _ fun _ => rfl, countP_since]
  sum_buckets := sum_timeline store bucketPlan now hours bucketMinutes
  listed_eq kind := total_listEvents_since store eventPlan _ kind order limit offset
  devices_nodup := recentDevices_nodup
  crashes_add_errors_le stats hstats := by
    obtain ⟨g, -, rfl⟩ := mem_recentDevices.mp hstats
    exact crashes_add_errors_le g
  lastSeen_isGreatest _ hstats := lastSeen_isGreatest hstats
  sorted := recentDevices_sorted
  mem_vendors _ hvendor := mem_facets_vendor_iff hvendor

end TelemetryApi
