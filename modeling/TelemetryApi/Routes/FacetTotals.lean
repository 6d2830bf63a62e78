import TelemetryApi.Routes.Pages
import TelemetryApi.Routes.Stats

/-!
# Facets and the lists behind them

The values of a facet, set one after the other as the filter of a list, share out the
events of the list; what is left over are the events with the empty text, which no value
of the filter selects.
-/

namespace TelemetryApi

/-- The columns that have a facet. -/
inductive FacetColumn where
  | vendor
  | deviceName
  | deviceVersion
  | deviceId

namespace FacetColumn

def text : FacetColumn → Event → String
  | vendor => (·.vendor)
  | deviceName => (·.deviceName)
  | deviceVersion => (·.deviceVersion)
  | deviceId => (·.deviceId)

def values : FacetColumn → Facets → List String
  | vendor => (·.vendor)
  | deviceName => (·.deviceName)
  | deviceVersion => (·.deviceVersion)
  | deviceId => (·.deviceId)

/-- The filter of the list on the column. -/
def filter : FacetColumn → ListParams → Option String
  | vendor => (·.vendor)
  | deviceName => (·.deviceName)
  | deviceVersion => (·.deviceVersion)
  | deviceId => (·.deviceId)

/-- The list with the filter set to a value. -/
def pick : FacetColumn → ListParams → String → ListParams
  | vendor, p, v => { p with vendor := some v }
  | deviceName, p, v => { p with deviceName := some v }
  | deviceVersion, p, v => { p with deviceVersion := some v }
  | deviceId, p, v => { p with deviceId := some v }

variable {κ : Type} [LinearOrder κ]

theorem values_eventFacets (column : FacetColumn) (store : Store) (collation : String → κ)
    (now : Int) (sinceHours : Bounded 1 (24 * 90)) :
    column.values (eventFacets store collation now sinceHours) =
      distinctTexts store collation (hoursBefore now sinceHours) column.text := by
  cases column <;> rfl

/-- A picked value that is not empty narrows the list to its events. -/
theorem selects_pick (column : FacetColumn) {p : ListParams} (hopen : column.filter p = none)
    {v : String} (hv : v ≠ "") (row : Event) :
    (column.pick p v).selects row = (p.selects row && column.text row == v) := by
  cases column <;>
    simp only [filter] at hopen <;>
    simp only [pick, text, ListParams.selects, textFilter, hopen, beq_eq_false_iff_ne.mpr hv,
      Bool.false_or, Bool.true_and] <;>
    ac_rfl

theorem select_pick (column : FacetColumn) (store : Store) {p : ListParams}
    (hopen : column.filter p = none) {v : String} (hv : v ≠ "") :
    store.select (column.pick p v) =
      (store.select p).filter fun row => column.text row = v := by
  rw [Store.select, Store.select, List.filter_filter]
  apply List.filter_congr
  intro row _
  rw [column.selects_pick hopen hv, Bool.and_comm, Bool.beq_eq_decide_eq]

theorem nodup_distinctTexts (store : Store) (collation : String → κ) (since : Int)
    (column : Event → String) : (distinctTexts store collation since column).Nodup := by
  rw [distinctTexts]
  apply List.Nodup.filter
  rw [(isResult_orderBy collation Scan.id _).1.nodup_iff]
  exact nodup_distinct column _

/-- The events of a list that starts no earlier than the facets, by their values. -/
theorem text_mem_values (column : FacetColumn) {store : Store} {collation : String → κ} {now : Int}
    {sinceHours : Bounded 1 (24 * 90)} {p : ListParams} {since : Int} (hsince : p.since = some since)
    (hcutoff : hoursBefore now sinceHours ≤ since) {row : Event} (hrow : row ∈ store.select p)
    (htext : column.text row ≠ "") :
    column.text row ∈ column.values (eventFacets store collation now sinceHours) := by
  rw [values_eventFacets, mem_distinctTexts]
  obtain ⟨hmem, hselects⟩ := List.mem_filter.mp hrow
  refine ⟨htext, row, List.mem_filter.mpr ⟨hmem, decide_eq_true (hcutoff.trans ?_)⟩, rfl⟩
  simp only [ListParams.selects, hsince, Option.all_some, Bool.and_eq_true, decide_eq_true_eq]
    at hselects
  exact hselects.1.1.2

/-- The lists behind the values of a facet share out the list without that filter, apart
from its events with the empty text. No value comes twice or is empty, and a value selects
nothing but its events, so no event is in two of the lists. -/
theorem sum_totals (column : FacetColumn) (store : Store) (collation : String → κ) (now : Int)
    (sinceHours : Bounded 1 (24 * 90)) (scan : Scan Event) (p : ListParams) (since : Int)
    (hopen : column.filter p = none) (hsince : p.since = some since)
    (hcutoff : hoursBefore now sinceHours ≤ since) :
    let values := column.values (eventFacets store collation now sinceHours)
    values.Nodup ∧ "" ∉ values ∧
      (∀ v ∈ values, store.select (column.pick p v) =
        (store.select p).filter fun row => column.text row = v) ∧
      (values.map fun v => (listEvents store scan (column.pick p v)).total).sum +
          (store.select p).countP (fun row => column.text row = "") =
        (listEvents store scan p).total := by
  intro values
  have hvalues : values = distinctTexts store collation (hoursBefore now sinceHours) column.text :=
    column.values_eventFacets store collation now sinceHours
  have hempty : "" ∉ values := by
    rw [hvalues, mem_distinctTexts]
    exact fun h => h.1 rfl
  have hne : ∀ v ∈ values, v ≠ "" := fun v hv h => hempty (h ▸ hv)
  have hpick : ∀ v ∈ values, store.select (column.pick p v) =
      (store.select p).filter fun row => column.text row = v :=
    fun v hv => column.select_pick store hopen (hne v hv)
  have hnodup : values.Nodup := hvalues ▸ nodup_distinctTexts _ _ _ _
  refine ⟨hnodup, hempty, hpick, ?_⟩
  have htexts : ∀ row ∈ (store.select p).filter (fun row => column.text row ≠ ""),
      column.text row ∈ values := by
    intro row hrow
    obtain ⟨hmem, htext⟩ := List.mem_filter.mp hrow
    exact column.text_mem_values hsince hcutoff hmem (of_decide_eq_true htext)
  have hsum := sum_countP_keys hnodup (fun _ => true) htexts
  have htotals : values.map (fun v => (listEvents store scan (column.pick p v)).total) =
      values.map fun v => (((store.select p).filter fun row => column.text row ≠ "").filter
        fun row => column.text row = v).countP fun _ => true := by
    apply List.map_congr_left
    intro v hv
    rw [List.countP_true, List.filter_filter]
    show (store.select (column.pick p v)).length = _
    rw [hpick v hv]
    apply congrArg List.length
    apply List.filter_congr
    intro row _
    by_cases hrow : column.text row = v
    · simp [hrow, hne v hv]
    · simp [hrow]
  rw [htotals, hsum, List.countP_true, ← List.countP_eq_length_filter]
  show _ = (store.select p).length
  rw [List.length_eq_countP_add_countP fun row => decide (column.text row ≠ "")]
  simp

/-- Over a table where one device has no name. -/
theorem sum_totals_named :
    let store : Store := ⟨[minimalRow 1 0, { minimalRow 2 0 with deviceName := "" }], by decide⟩
    let values := (eventFacets store String.length 0 ⟨24, by decide⟩).deviceName
    values.Nodup ∧ "" ∉ values ∧
      (∀ v ∈ values, store.select { since := some 0, deviceName := some v } =
        (store.select { since := some 0 }).filter fun row => row.deviceName = v) ∧
      (values.map fun v =>
          (listEvents store .id { since := some 0, deviceName := some v }).total).sum +
          (store.select { since := some 0 }).countP (fun row => row.deviceName = "") =
        (listEvents store .id { since := some 0 }).total :=
  sum_totals .deviceName _ String.length 0 ⟨24, by decide⟩ .id { since := some 0 } 0 rfl rfl
    (by decide)

end FacetColumn

end TelemetryApi
