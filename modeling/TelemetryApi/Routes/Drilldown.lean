import TelemetryApi.Routes.Pages
import TelemetryApi.Routes.Stats

/-!
# From a device to its events

The rows of `recent_devices` against `list_events` with the values of such a row. The
rollup has a group for the empty text, which a parameter of the list leaves out of its
filters, as the facets leave it out of their values.
-/

namespace TelemetryApi

/-- The parameters of a request for the list with the values of a device, `since` and,
if one is given, a kind. -/
def deviceParams (stats : VendorStats) (since : Int) (kind : Option EventKind) (order : SortOrder)
    (limit : Bounded 1 500) (offset : Nat) : ListParams :=
  { vendor := some stats.vendor
    deviceName := some stats.deviceName
    deviceVersion := some stats.deviceVersion
    since := some since
    kind := kind.toList
    order := order
    limit := limit
    offset := offset }

/-- The device has each value of `stats` that is not empty. -/
def VendorStats.covers (stats : VendorStats) (device : String × String × String) : Bool :=
  textFilter (some stats.vendor) device.1 &&
    textFilter (some stats.deviceName) device.2.1 &&
    textFilter (some stats.deviceVersion) device.2.2

/-- No value of the device is empty. -/
def VendorStats.Named (stats : VendorStats) : Prop :=
  stats.vendor ≠ "" ∧ stats.deviceName ≠ "" ∧ stats.deviceVersion ≠ ""

instance (stats : VendorStats) : Decidable stats.Named := inferInstanceAs (Decidable (_ ∧ _ ∧ _))

theorem VendorStats.covers_iff {stats : VendorStats} (h : stats.Named)
    (device : String × String × String) : stats.covers device ↔ device = stats.device := by
  obtain ⟨hvendor, hname, hversion⟩ := h
  obtain ⟨vendor, deviceName, deviceVersion⟩ := device
  simp [covers, textFilter, VendorStats.device, hvendor, hname, hversion, and_assoc]

theorem deviceParams_selects (stats : VendorStats) (since : Int) (kind : Option EventKind)
    (order : SortOrder) (limit : Bounded 1 500) (offset : Nat) (row : Event) :
    (deviceParams stats since kind order limit offset).selects row =
      (stats.covers row.device && (decide (since ≤ row.ts) && kind.all (row.kind = ·))) := by
  have hfree : textFilter none row.deviceId = true ∧ textFilter none row.sessionId = true ∧
      choiceFilter [] row.level = true ∧ searchFilter none row = true := ⟨rfl, rfl, rfl, rfl⟩
  cases kind with
  | none =>
    simp [deviceParams, ListParams.selects, VendorStats.covers, Event.device, hfree, choiceFilter,
      Bool.and_assoc]
  | some k =>
    simp [deviceParams, ListParams.selects, VendorStats.covers, Event.device, hfree, choiceFilter,
      Bool.and_assoc, Bool.and_comm, Bool.and_left_comm]

/-- The rows of the list are the rows since the cut-off of the devices that are covered. -/
theorem total_listEvents_device (store : Store) (scan : Scan Event) (stats : VendorStats)
    (since : Int) (kind : Option EventKind) (order : SortOrder) (limit : Bounded 1 500)
    (offset : Nat) :
    (listEvents store scan (deviceParams stats since kind order limit offset)).total =
      ((store.since since).filter fun row => stats.covers row.device).countP fun row =>
        kind.all (row.kind = ·) := by
  simp only [listEvents, Store.select, Store.since, List.filter_filter, List.countP_filter,
    ← List.countP_eq_length_filter]
  apply List.countP_congr
  intro row _
  rw [deviceParams_selects]
  simp only [Bool.and_eq_true]
  tauto

section

variable {store : Store} {scan : Scan VendorStats} {now : Int} {hours : Bounded 1 (24 * 30)}

/-- What the groups of some devices count adds up to what their rows count. -/
theorem sum_filter_recentDevices (figure : VendorStats → Nat) (p : Event → Bool)
    (hfigure : ∀ g, figure (vendorStats g) = g.2.countP p)
    (q : String × String × String → Bool) :
    (((recentDevices store scan now hours).filter fun stats => q stats.device).map figure).sum =
      ((store.since (hoursBefore now hours)).filter fun row => q row.device).countP p := by
  rw [((recentDevices_perm.filter _).map figure).sum_eq, List.filter_map, List.map_map,
    ← sum_countP_groups_filter]
  simp only [Function.comp_def, hfigure]
  rfl

/-- A figure of one device is what its rows count. -/
theorem figure_eq_countP (figure : VendorStats → Nat) (p : Event → Bool)
    (hfigure : ∀ g, figure (vendorStats g) = g.2.countP p) {stats : VendorStats}
    (h : stats ∈ recentDevices store scan now hours) :
    figure stats = ((store.since (hoursBefore now hours)).filter fun row =>
      row.device = stats.device).countP p := by
  obtain ⟨g, hg, rfl⟩ := mem_recentDevices.mp h
  rw [hfigure, (mem_groups.mp hg).2]
  rfl

end

/-- The figures of the list for the values of `stats` are sums over the devices that
`stats` covers. -/
structure ListsCovered (devices : List VendorStats) (stats : VendorStats)
    (listed : Option EventKind → Nat) : Prop where
  total : listed none =
    ((devices.filter fun other => stats.covers other.device).map (·.total)).sum
  crashes : listed (some .crash) =
    ((devices.filter fun other => stats.covers other.device).map (·.crashes)).sum
  errors : listed (some .error) =
    ((devices.filter fun other => stats.covers other.device).map (·.errors)).sum

/-- The figures of the list are those of the device alone. -/
structure ListsDevice (stats : VendorStats) (listed : Option EventKind → Nat) : Prop where
  total : listed none = stats.total
  crashes : listed (some .crash) = stats.crashes
  errors : listed (some .error) = stats.errors

/-- The list with the values of a device has the figures of the devices that share the
values that are not empty, which is the one device if none of its values is empty. -/
theorem listEvents_device (store : Store) (devicePlan : Scan VendorStats) (eventPlan : Scan Event)
    (now : Int) (hours : Bounded 1 (24 * 30)) (order : SortOrder) (limit : Bounded 1 500)
    (offset : Nat) (stats : VendorStats) (h : stats ∈ recentDevices store devicePlan now hours) :
    ListsCovered (recentDevices store devicePlan now hours) stats (fun kind =>
        (listEvents store eventPlan
          (deviceParams stats (hoursBefore now hours) kind order limit offset)).total) ∧
      (stats.Named → ListsDevice stats fun kind =>
        (listEvents store eventPlan
          (deviceParams stats (hoursBefore now hours) kind order limit offset)).total) := by
  have hall : ∀ g, (vendorStats g).total = g.2.countP fun _ => true := fun g => by
    simp [vendorStats]
  constructor
  · constructor
    · rw [total_listEvents_device, sum_filter_recentDevices _ _ hall]
      rfl
    · rw [total_listEvents_device, sum_filter_recentDevices _ _ fun _ => rfl]
      rfl
    · rw [total_listEvents_device, sum_filter_recentDevices _ _ fun _ => rfl]
      rfl
  · intro hnamed
    have hrows : ((store.since (hoursBefore now hours)).filter fun row => stats.covers row.device) =
        (store.since (hoursBefore now hours)).filter fun row => row.device = stats.device := by
      apply List.filter_congr
      intro row _
      rw [Bool.eq_iff_iff, stats.covers_iff hnamed, decide_eq_true_eq]
    constructor
    · rw [total_listEvents_device, hrows, figure_eq_countP (·.total) _ hall h]
      rfl
    · rw [total_listEvents_device, hrows, figure_eq_countP (·.crashes) _ (fun _ => rfl) h]
      rfl
    · rw [total_listEvents_device, hrows, figure_eq_countP (·.errors) _ (fun _ => rfl) h]
      rfl

/-- Two versions of a device, one of them the empty text. -/
def versionStore : Store :=
  ⟨[minimalRow 1 0, { minimalRow 2 0 with deviceVersion := "1.0" }], by decide⟩

theorem listEvents_device_versions :
    ∃ stats ∈ recentDevices versionStore .id 0 ⟨24, by decide⟩, stats.Named ∧
      ListsDevice stats fun kind =>
        (listEvents versionStore .id
          (deviceParams stats (hoursBefore 0 24) kind .desc ⟨50, by decide⟩ 0)).total := by
  have hsome : ∃ stats ∈ recentDevices versionStore .id 0 ⟨24, by decide⟩, stats.Named := by
    decide +kernel
  obtain ⟨stats, hmem, hnamed⟩ := hsome
  exact ⟨stats, hmem, hnamed, (listEvents_device versionStore .id .id 0 ⟨24, by decide⟩ .desc
    ⟨50, by decide⟩ 0 stats hmem).2 hnamed⟩

/-- The list for the unnamed version has the events of both. -/
theorem listEvents_device_unnamed :
    ∃ stats ∈ recentDevices versionStore .id 0 ⟨24, by decide⟩,
      stats.device = ("v", "d", "") ∧ stats.total = 1 ∧
        (listEvents versionStore .id
          (deviceParams stats (hoursBefore 0 24) none .desc ⟨50, by decide⟩ 0)).total = 2 := by
  decide +kernel

end TelemetryApi
