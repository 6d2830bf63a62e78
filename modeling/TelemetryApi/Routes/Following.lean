import TelemetryApi.Foundations.GrowingPages
import TelemetryApi.Routes.Pages
import TelemetryApi.Routes.ReadCommitted

/-!
# Reading the list page by page while events arrive

A client asks for the offsets `0`, `limit`, `2 * limit`, … until a page is not
full. Devices keep sending: their commits fall between the requests and between the
count and the page of one request.
-/

namespace TelemetryApi

variable (settings : Settings) (rt : Runtime)

/-- The request for a page. -/
def ListParams.atPage (p : ListParams) (k : Nat) : ListParams := { p with offset := k * p.limit }

/-- The answers that a client gets from page `k` on, the first request beginning in
one state of the table and the last answer being returned in another. -/
inductive Follows (p : ListParams) : Nat → Store → List EventListResponse → Store → Prop
  | last {k : Nat} {store store' : Store} {scan : Scan Event} {r : EventListResponse}
      (hreturns : Returns settings rt (listEventsScript scan (p.atPage k)) store r store')
      (hshort : r.items.length < p.limit) : Follows p k store [r] store'
  | next {k : Nat} {store between store' : Store} {scan : Scan Event} {r : EventListResponse}
      {rs : List EventListResponse}
      (hreturns : Returns settings rt (listEventsScript scan (p.atPage k)) store r between)
      (hfull : r.items.length = p.limit) (hrest : Follows p (k + 1) between rs store') :
      Follows p k store (r :: rs) store'

variable {settings rt} {store store' : Store} {p : ListParams} {rs : List EventListResponse}
  {k : Nat}

theorem Returns.grows {scan : Scan Event} {r : EventListResponse}
    (h : Returns settings rt (listEventsScript scan p) store r store') :
    Store.Grows settings rt store store' := by
  obtain ⟨counted, listed, hcounted, hlisted, hend, -⟩ := (returns_listEvents_iff scan p r).mp h
  exact (hcounted.trans hlisted).trans hend

theorem Follows.grows (h : Follows settings rt p k store rs store') :
    Store.Grows settings rt store store' := by
  induction h with
  | last hreturns => exact hreturns.grows
  | next hreturns _ _ ih => exact hreturns.grows.trans ih

theorem Store.Grows.select_sublist (h : Store.Grows settings rt store store') (p : ListParams) :
    (store.select p).Sublist (store'.select p) :=
  h.rows_append.sublist.filter p.selects

/-- The boundaries between pages are clean in every state from one to another. -/
def CleanBetween (settings : Settings) (rt : Runtime) (p : ListParams) (store store' : Store) :
    Prop :=
  ∀ t, Store.Grows settings rt store t → Store.Grows settings rt t store' →
    CleanPages p.order.key p.limit (t.select p)

/-- What an answer has is a page of one of the states, which lies between commits. -/
theorem Returns.items_eq {scan : Scan Event} {r : EventListResponse}
    (h : Returns settings rt (listEventsScript scan (p.atPage k)) store r store') :
    ∃ listed, Store.Grows settings rt store listed ∧ Store.Grows settings rt listed store' ∧
      r.items = (page p.limit (k * p.limit)
        (orderBy p.order.key scan (listed.select p))).map rowToOut := by
  obtain ⟨counted, listed, hcounted, hlisted, hend, rfl⟩ :=
    (returns_listEvents_iff scan (p.atPage k) r).mp h
  exact ⟨listed, hcounted.trans hlisted, hend, rfl⟩

/-- The client is a reader of pages of the growing selection. -/
theorem Follows.pageRun (h : Follows settings rt p k store rs store')
    (hclean : CleanBetween settings rt p store store') :
    ∃ pages, rs.flatMap (·.items) = pages.flatten.map rowToOut ∧
      ∃ final, PageRun p.order.key p.limit k (store.select p) pages final ∧
        final.Sublist (store'.select p) := by
  induction h with
  | @last k store store' scan r hreturns hshort =>
    obtain ⟨listed, hlisted, hend, hitems⟩ := hreturns.items_eq
    refine ⟨[_], ?_, listed.select p, .grow (hlisted.select_sublist p) (.last
      (isResult_orderBy p.order.key scan _) (hclean listed hlisted hend) ?_),
      hend.select_sublist p⟩
    · rw [List.flatMap_singleton, List.flatten_singleton, hitems]
    · rwa [hitems, List.length_map] at hshort
  | @next k store between store' scan r rs hreturns _ hrest ih =>
    obtain ⟨listed, hlisted, hend, hitems⟩ := hreturns.items_eq
    obtain ⟨pages, hpages, final, hrun, hfinal⟩ := ih fun t ht =>
      hclean t (hreturns.grows.trans ht)
    refine ⟨_ :: pages, ?_, final, .grow (hlisted.select_sublist p) (.next
      (isResult_orderBy p.order.key scan _) (hclean listed hlisted (hend.trans hrest.grows))
      (.grow (hend.select_sublist p) hrun)), hfinal⟩
    rw [List.flatMap_cons, List.flatten_cons, List.map_append, hpages, hitems]

/-- No event that the filters select has been added in front of the row or with its
timestamp. -/
def Store.Settled (p : ListParams) (store store' : Store) (row : Event) : Prop :=
  PageRun.Settled p.order.key (store.select p) (store'.select p) row

variable (settings rt p store store' rs) in
/-- A client that reads page by page misses no event that is there when it begins,
whatever is committed meanwhile, as long as no boundary of a page falls between events
with one timestamp. It reads nothing but events of the table, and an event that nothing
is added in front of it reads exactly once. -/
theorem follows_covers (h : Follows settings rt p 0 store rs store')
    (hclean : CleanBetween settings rt p store store') :
    (∀ row ∈ store.select p, rowToOut row ∈ rs.flatMap (·.items)) ∧
    (∀ item ∈ rs.flatMap (·.items), ∃ row ∈ store'.select p, rowToOut row = item) ∧
    ∀ row ∈ store.select p, Store.Settled p store store' row →
      (rs.flatMap (·.items)).count (rowToOut row) = 1 := by
  obtain ⟨pages, hpages, final, hrun, hfinal⟩ := h.pageRun hclean
  have hlimit : 0 < (p.limit : Nat) := p.limit.property.1
  have hnodup := (store'.nodup_select p).sublist hfinal
  rw [hpages]
  refine ⟨?_, ?_, ?_⟩
  · intro row hrow
    exact List.mem_map_of_mem (hrun.covers hnodup hlimit hrow (by simp))
  · intro item hitem
    obtain ⟨row, hrow, rfl⟩ := List.mem_map.mp hitem
    exact ⟨row, hfinal.subset (hrun.subset row hrow), rfl⟩
  · intro row hrow hstill
    rw [List.count_map_of_injective _ _ rowToOut_injective]
    exact hrun.count_eq_one hnodup hlimit hrow (by simp) (hfinal.countP_le.trans hstill)

/-- Where the selected events have different timestamps in the end, all boundaries
have been clean. -/
theorem cleanBetween_of_ts_nodup (h : ((store'.select p).map (·.ts)).Nodup) :
    CleanBetween settings rt p store store' := by
  intro t _ hend k hk hlt
  have hsublist := (hend.select_sublist p).map (·.ts)
  exact t.cleanCut_of_ts_nodup p (h.sublist hsublist)
    (Nat.mul_pos hk p.limit.property.1) hlt.le

/-- The same row under another identifier. -/
theorem OrmRow.stored_id {row : OrmRow} {id : Uuid} {receivedAt : Int} {event : Event}
    (h : row.stored rt id receivedAt = some event) (id' : Uuid) :
    row.stored rt id' receivedAt = some { event with id := id' } := by
  obtain ⟨ts, hts, rfl⟩ := Option.map_eq_some_iff.mp h
  exact Option.map_eq_some_iff.mpr ⟨ts, hts, rfl⟩

/-- The table of `filledStore` once the batch of `mixedRequest` has come again. -/
def resentStore : Store := ⟨[sampleStored, { sampleStored with id := ⟨2⟩ }], by decide⟩

theorem ingests_resent : Ingests {} sampleRuntime filledStore resentStore := by
  obtain ⟨b, hprep, hstored⟩ := prepares_sample sampleStored.receivedAt
  obtain ⟨row, event, ⟨id, hrow⟩, hnone, hb⟩ := List.forall₂_cons_right_iff.mp hstored
  obtain rfl := List.forall₂_nil_right_iff.mp hnone
  refine ⟨mixedRequest, b, hprep, sampleStored.receivedAt, _, ?_, rfl⟩
  rw [hb]
  exact .cons ⟨⟨2⟩, OrmRow.stored_id hrow ⟨2⟩⟩ .nil

/-- Two events a page, and the second event arrives before the first page is read. -/
theorem follows_covers_resent :
    ∃ rs : List EventListResponse, (∀ row ∈ filledStore.select { limit := ⟨2, by decide⟩ },
        rowToOut row ∈ rs.flatMap (·.items)) ∧
      (∀ item ∈ rs.flatMap (·.items), ∃ row ∈ resentStore.select { limit := ⟨2, by decide⟩ },
        rowToOut row = item) ∧
      ∀ row ∈ filledStore.select { limit := ⟨2, by decide⟩ },
        Store.Settled { limit := ⟨2, by decide⟩ } filledStore resentStore row →
        (rs.flatMap (·.items)).count (rowToOut row) = 1 := by
  have hgrows := Relation.ReflTransGen.single ingests_resent
  have hfirst : Returns {} sampleRuntime
      (listEventsScript .id (ListParams.atPage { limit := ⟨2, by decide⟩ } 0)) filledStore
      { listEvents resentStore .id (ListParams.atPage { limit := ⟨2, by decide⟩ } 0) with
        total := 1 } resentStore :=
    (returns_listEvents_iff _ _ _).mpr
      ⟨filledStore, resentStore, .refl, hgrows, .refl, rfl⟩
  refine ⟨_, follows_covers {} sampleRuntime _ _ _ _ (.next hfirst ?_ (.last
    (returns_listEvents {} sampleRuntime .id _ resentStore) ?_)) ?_⟩
  · decide +kernel
  · decide +kernel
  · intro t _ hend k hk hlt
    -- there are never more events than one page has
    have hle := hend.length_select_le { limit := ⟨2, by decide⟩ }
    have htwo : (resentStore.select { limit := ⟨2, by decide⟩ }).length = 2 := by decide +kernel
    have hmul : k * 2 < _ := hlt
    omega

end TelemetryApi
