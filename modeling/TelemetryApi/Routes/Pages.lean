import TelemetryApi.Routes.Listing

/-!
# Reading the list page by page

A client that reads `GET /v1/events` at the offsets `0`, `limit`, `2 * limit`, …
sends a query for each page. `ORDER BY ts` leaves the order of events with one
timestamp open, so the pages fit together only where their boundaries do not
fall between such events.
-/

namespace TelemetryApi

/-- How many multiples of the limit, from zero, are below the total. -/
def pageCount (total limit : Nat) : Nat := (total + limit - 1) / limit

theorem lt_pageCount {total limit k : Nat} (hlimit : 0 < limit) :
    k < pageCount total limit ↔ k * limit < total := by
  rw [pageCount, ← Nat.succ_le_iff, Nat.le_div_iff_mul_le hlimit, Nat.succ_mul]
  omega

theorem le_pageCount_mul (total : Nat) {limit : Nat} (hlimit : 0 < limit) :
    total ≤ pageCount total limit * limit := by
  by_contra hlt
  exact lt_irrefl _ ((lt_pageCount hlimit).mpr (Nat.lt_of_not_le hlt))

/-- The items of the page at an offset. -/
def pageItems (store : Store) (scan : Scan Event) (p : ListParams) (offset : Nat) :
    List EventOut :=
  (listEvents store scan { p with offset := offset }).items

/-- The items of all pages until the offset reaches the total, where each request
has a plan of its own. -/
def pagedItems (store : Store) (scans : Nat → Scan Event) (p : ListParams) : List EventOut :=
  (List.range (pageCount (listEvents store (scans 0) p).total p.limit)).flatMap fun k =>
    pageItems store (scans k) p (k * p.limit)

theorem pagedItems_eq (store : Store) (scans : Nat → Scan Event) (p : ListParams) :
    pagedItems store scans p =
      (readPages p.limit (fun k => orderBy p.order.key (scans k) (store.select p))
        (pageCount (store.select p).length p.limit)).map rowToOut := by
  rw [readPages, List.map_flatMap]
  rfl

theorem Store.nodup_select (store : Store) (p : ListParams) : (store.select p).Nodup :=
  store.ids_nodup.of_map.filter _

/-- Read page by page, the list has every selected event exactly once, under all
plans, exactly when no boundary between two pages falls inside a group of selected
events with the same timestamp. -/
theorem pagedItems_complete_iff (store : Store) (p : ListParams) :
    (∀ scans : Nat → Scan Event,
        (pagedItems store scans p).Perm ((store.select p).map rowToOut)) ↔
      ∀ k, 0 < k → k * p.limit < (store.select p).length →
        CleanCut p.order.key (store.select p) (k * p.limit) := by
  have hlimit : 0 < (p.limit : Nat) := p.limit.property.1
  rw [← readPages_perm_iff (store.nodup_select p) hlimit (le_pageCount_mul _ hlimit)]
  simp only [pagedItems_eq, List.map_perm_map_iff rowToOut_injective]
  constructor
  · intro hscans result hresult
    -- each of the results is delivered under some plan
    choose scans hscan using fun k => (hresult k).exists_scan
    have hperm := hscans scans
    simp only [hscan] at hperm
    exact hperm
  · intro hresults scans
    exact hresults _ fun k => isResult_orderBy p.order.key (scans k) (store.select p)

/-- A minimal row. -/
def minimalRow (id : Nat) (ts : Int) : Event where
  id := ⟨BitVec.ofNat 128 id⟩
  receivedAt := ts
  vendor := "v"
  deviceName := "d"
  deviceVersion := ""
  deviceId := "x"
  sessionId := "s"
  userId := ""
  platform := ""
  maxVersion := ""
  kind := .event
  level := .info
  name := "n"
  message := none
  ts := ts
  tsMs := ts / 1000
  value := none
  unit := none
  props := []

/-- Two events with the same timestamp. -/
def twinStore : Store := ⟨[minimalRow 1 0, minimalRow 2 0], by decide⟩

/-- The plans of the two queries deliver the twins in opposite orders. -/
def twinScans (k : Nat) : Scan Event := if k = 0 then .id else .reverse

/-- With one item a page the first twin comes twice and the second is missing. -/
theorem pagedItems_twins :
    ¬ (pagedItems twinStore twinScans { limit := ⟨1, by decide⟩ }).Perm
      ((twinStore.select { limit := ⟨1, by decide⟩ }).map rowToOut) ∧
    pagedItems twinStore twinScans { limit := ⟨1, by decide⟩ } =
      [rowToOut (minimalRow 1 0), rowToOut (minimalRow 1 0)] := by
  decide +kernel

/-- The events of distinct timestamps always fit together. -/
theorem Store.cleanCut_of_ts_nodup (store : Store) (p : ListParams)
    (h : ((store.select p).map (·.ts)).Nodup) {n : Nat} (hpos : 0 < n)
    (hle : n ≤ (store.select p).length) : CleanCut p.order.key (store.select p) n := by
  refine cleanCut_of_nodup ?_ hpos hle
  cases p.order with
  | asc => exact h
  | desc =>
    have hneg := h.map neg_injective
    rwa [List.map_map] at hneg

end TelemetryApi
