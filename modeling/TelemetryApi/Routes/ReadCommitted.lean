import TelemetryApi.Foundations.Statements
import TelemetryApi.Routes.Lifecycle
import TelemetryApi.Routes.Stored

/-!
# Reading while others ingest

The engine leaves the isolation level at READ COMMITTED, so the statements of one
reading request see the commits that fall between them. Rows are only added, which
is what the answers still keep to.
-/

namespace TelemetryApi

variable (settings : Settings) (rt : Runtime)

/-- The commit of an ingest request. -/
def Ingests (store store' : Store) : Prop :=
  ∃ req b, Prepares settings rt req b ∧ Store.Inserted rt b.rows store store'

/-- Any number of commits. -/
abbrev Store.Grows : Store → Store → Prop := Relation.ReflTransGen (Ingests settings rt)

/-- A reading request among the commits of ingest requests: it begins in one state
of the table and returns its answer in another. -/
def Returns {α : Type} (script : Script Store α) (store : Store) (answer : α) (store' : Store) :
    Prop :=
  Relation.ReflTransGen (Script.Step (Ingests settings rt)) (store, script)
    (store', .done answer)

/-- The statements of `list_events`: the count, then the page. -/
def listEventsScript (scan : Scan Event) (p : ListParams) : Script Store EventListResponse :=
  .query fun counted => .query fun listed => .done
    { items := (page p.limit p.offset (orderBy p.order.key scan (listed.select p))).map rowToOut
      total := (counted.select p).length
      limit := p.limit
      offset := p.offset }

variable {κ : Type} [LinearOrder κ]

/-- The statements of `event_facets`, one for each list. -/
def eventFacetsScript (collation : String → κ) (now : Int) (sinceHours : Bounded 1 (24 * 90)) :
    Script Store Facets :=
  let since := hoursBefore now sinceHours
  .query fun s₁ => .query fun s₂ => .query fun s₃ => .query fun s₄ => .done
    { vendor := distinctTexts s₁ collation since (·.vendor)
      deviceName := distinctTexts s₂ collation since (·.deviceName)
      deviceVersion := distinctTexts s₃ collation since (·.deviceVersion)
      deviceId := distinctTexts s₄ collation since (·.deviceId) }

theorem onState_listEventsScript (scan : Scan Event) (p : ListParams) (store : Store) :
    (listEventsScript scan p).onState store = listEvents store scan p := rfl

theorem onState_eventFacetsScript (collation : String → κ) (now : Int)
    (sinceHours : Bounded 1 (24 * 90)) (store : Store) :
    (eventFacetsScript collation now sinceHours).onState store =
      eventFacets store collation now sinceHours := rfl

/-- Where nobody commits among its statements, a request returns what its handler
returns in one piece. -/
theorem returns_listEvents (scan : Scan Event) (p : ListParams) (store : Store) :
    Returns settings rt (listEventsScript scan p) store (listEvents store scan p) store := by
  rw [← onState_listEventsScript]
  exact Script.reaches_done_iff.mpr (Script.answers_onState _ .refl .refl)

theorem returns_eventFacets (collation : String → κ) (now : Int)
    (sinceHours : Bounded 1 (24 * 90)) (store : Store) :
    Returns settings rt (eventFacetsScript collation now sinceHours) store
      (eventFacets store collation now sinceHours) store := by
  rw [← onState_eventFacetsScript]
  exact Script.reaches_done_iff.mpr (Script.answers_onState _ .refl .refl)

variable {settings rt} {store store' : Store}

/-- Commits only add rows. -/
theorem Store.Grows.rows_append (h : Store.Grows settings rt store store') :
    store.rows <+: store'.rows := by
  induction h with
  | refl => exact List.prefix_rfl
  | tail _ hstep ih =>
    obtain ⟨req, b, -, receivedAt, news, -, hrows⟩ := hstep
    exact ih.trans ⟨news, hrows.symm⟩

theorem Store.Grows.length_select_le (h : Store.Grows settings rt store store') (p : ListParams) :
    (store.select p).length ≤ (store'.select p).length :=
  (h.rows_append.filter p.selects).length_le

/-- The items of a page lie within the rows that the filters select. -/
theorem offset_add_length_items_le (store : Store) (scan : Scan Event) (p : ListParams)
    (h : (listEvents store scan p).items ≠ []) :
    p.offset + (listEvents store scan p).items.length ≤ (store.select p).length := by
  have hlength : (orderBy p.order.key scan (store.select p)).length = (store.select p).length :=
    (isResult_orderBy _ _ _).1.length_eq
  have hpos := List.length_pos_of_ne_nil h
  simp only [listEvents, page, List.length_map, List.length_take, List.length_drop] at hpos ⊢
  omega

theorem returns_listEvents_iff (scan : Scan Event) (p : ListParams) (r : EventListResponse) :
    Returns settings rt (listEventsScript scan p) store r store' ↔
      ∃ counted listed, Store.Grows settings rt store counted ∧
        Store.Grows settings rt counted listed ∧ Store.Grows settings rt listed store' ∧
        r = { listEvents listed scan p with total := (counted.select p).length } := by
  rw [Returns, Script.reaches_done_iff]
  constructor
  · rintro ⟨counted, hcounted, listed, hlisted, hend, rfl⟩
    exact ⟨counted, listed, hcounted, hlisted, hend, rfl⟩
  · rintro ⟨counted, listed, hcounted, hlisted, hend, rfl⟩
    exact ⟨counted, hcounted, listed, hlisted, hend, rfl⟩

theorem returns_eventFacets_iff (collation : String → κ) (now : Int)
    (sinceHours : Bounded 1 (24 * 90)) (f : Facets) :
    Returns settings rt (eventFacetsScript collation now sinceHours) store f store' ↔
      ∃ s₁ s₂ s₃ s₄, Store.Grows settings rt store s₁ ∧ Store.Grows settings rt s₁ s₂ ∧
        Store.Grows settings rt s₂ s₃ ∧ Store.Grows settings rt s₃ s₄ ∧
        Store.Grows settings rt s₄ store' ∧
        f = { vendor := (eventFacets s₁ collation now sinceHours).vendor
              deviceName := (eventFacets s₂ collation now sinceHours).deviceName
              deviceVersion := (eventFacets s₃ collation now sinceHours).deviceVersion
              deviceId := (eventFacets s₄ collation now sinceHours).deviceId } := by
  rw [Returns, Script.reaches_done_iff]
  constructor
  · rintro ⟨s₁, h₁, s₂, h₂, s₃, h₃, s₄, h₄, hend, rfl⟩
    exact ⟨s₁, s₂, s₃, s₄, h₁, h₂, h₃, h₄, hend, rfl⟩
  · rintro ⟨s₁, s₂, s₃, s₄, h₁, h₂, h₃, h₄, hend, rfl⟩
    exact ⟨s₁, h₁, s₂, h₂, s₃, h₃, s₄, h₄, hend, rfl⟩

variable (settings rt store store') in
/-- In every interleaving, the total and the items of a list, and the four facets,
each describe a state between the beginning and the end of the request, the states
following each other. The total never exceeds what the state of the items has, a page
never reaches beyond it, and where the states agree the answer describes that one. -/
theorem readers_describe_states :
    (∀ scan p r, Returns settings rt (listEventsScript scan p) store r store' →
      ∃ counted listed, Store.Grows settings rt store counted ∧
        Store.Grows settings rt counted listed ∧ Store.Grows settings rt listed store' ∧
        r.total = (counted.select p).length ∧ r.items = (listEvents listed scan p).items ∧
        r.total ≤ (listed.select p).length ∧
        (r.items ≠ [] → p.offset + r.items.length ≤ (listed.select p).length) ∧
        (counted = listed → r = listEvents listed scan p)) ∧
    (∀ (collation : String → κ) now sinceHours f,
      Returns settings rt (eventFacetsScript collation now sinceHours) store f store' →
      ∃ s₁ s₂ s₃ s₄, Store.Grows settings rt store s₁ ∧ Store.Grows settings rt s₁ s₂ ∧
        Store.Grows settings rt s₂ s₃ ∧ Store.Grows settings rt s₃ s₄ ∧
        Store.Grows settings rt s₄ store' ∧
        f.vendor = (eventFacets s₁ collation now sinceHours).vendor ∧
        f.deviceName = (eventFacets s₂ collation now sinceHours).deviceName ∧
        f.deviceVersion = (eventFacets s₃ collation now sinceHours).deviceVersion ∧
        f.deviceId = (eventFacets s₄ collation now sinceHours).deviceId ∧
        (s₁ = s₂ → s₂ = s₃ → s₃ = s₄ → f = eventFacets s₄ collation now sinceHours)) := by
  refine ⟨fun scan p r h => ?_, fun collation now sinceHours f h => ?_⟩
  · obtain ⟨counted, listed, hcounted, hlisted, hend, rfl⟩ :=
      (returns_listEvents_iff scan p r).mp h
    refine ⟨counted, listed, hcounted, hlisted, hend, rfl, rfl, hlisted.length_select_le p,
      offset_add_length_items_le listed scan p, ?_⟩
    rintro rfl
    rfl
  · obtain ⟨s₁, s₂, s₃, s₄, h₁, h₂, h₃, h₄, hend, rfl⟩ :=
      (returns_eventFacets_iff collation now sinceHours f).mp h
    refine ⟨s₁, s₂, s₃, s₄, h₁, h₂, h₃, h₄, hend, rfl, rfl, rfl, rfl, ?_⟩
    rintro rfl rfl rfl
    rfl

/-- The table before and after the request of `mixedRequest`. -/
def emptyStore : Store := ⟨[], by decide⟩

def filledStore : Store := ⟨[sampleStored], by decide⟩

/-- At any time, the batch of `mixedRequest` is the row of `sampleStored`. -/
theorem prepares_sample (receivedAt : Int) :
    ∃ b, Prepares {} sampleRuntime mixedRequest b ∧
      List.Forall₂ (fun row event => ∃ id,
        OrmRow.stored sampleRuntime row id receivedAt = some event) b.rows
        [{ sampleStored with receivedAt := receivedAt }] := by
  have hrows : (prepareBatch {} sampleRuntime mixedRequest).toOption.map
      (fun b => b.rows.map fun row => row.stored sampleRuntime sampleStored.id
        sampleStored.receivedAt) = some [some sampleStored] := by
    decide +kernel
  obtain ⟨b, hb, hmap⟩ := Option.map_eq_some_iff.mp hrows
  obtain ⟨row, hrow, hstored⟩ := List.map_eq_singleton_iff.mp hmap
  have hprep : prepareBatch {} sampleRuntime mixedRequest = .ok b := by
    cases hout : prepareBatch {} sampleRuntime mixedRequest with
    | error e =>
      rw [hout] at hb
      cases hb
    | ok b' =>
      rw [hout] at hb
      exact congrArg Except.ok (Option.some.inj hb)
  refine ⟨b, ⟨rfl, hprep⟩, ?_⟩
  rw [hrow]
  exact .cons ⟨_, OrmRow.stored_receivedAt hstored receivedAt⟩ .nil

theorem ingests_sample : Ingests {} sampleRuntime emptyStore filledStore := by
  obtain ⟨b, hprep, hstored⟩ := prepares_sample sampleStored.receivedAt
  exact ⟨mixedRequest, b, hprep, sampleStored.receivedAt, [sampleStored], hstored, rfl⟩

/-- The facets of the last week. -/
def weekFacets (store : Store) : Facets :=
  eventFacets store String.length 1779548402000000 ⟨168, by decide⟩

/-- With the commit between the count and the page, and between the first and the last
facet, the answers describe no state of the table. -/
theorem readers_torn :
    (∃ r, Returns {} sampleRuntime (listEventsScript .id {}) emptyStore r filledStore ∧
      r.total = 0 ∧ r.items.length = 1 ∧
      ∀ t scan, (listEvents t scan {}).total = r.total → (listEvents t scan {}).items ≠ r.items) ∧
    ∃ f, Returns {} sampleRuntime (eventFacetsScript String.length 1779548402000000
        ⟨168, by decide⟩) emptyStore f filledStore ∧
      f.vendor = [] ∧ f.deviceId = ["d"] ∧
      ∀ t, Store.Grows {} sampleRuntime emptyStore t → Store.Grows {} sampleRuntime t filledStore →
        weekFacets t ≠ f := by
  have hgrows := Relation.ReflTransGen.single ingests_sample
  refine ⟨⟨_, (returns_listEvents_iff _ _ _).mpr
    ⟨emptyStore, filledStore, .refl, hgrows, .refl, rfl⟩, rfl, ?_, ?_⟩,
    ⟨_, (returns_eventFacets_iff _ _ _ _).mpr
      ⟨emptyStore, filledStore, filledStore, filledStore, .refl, hgrows, .refl, .refl, .refl, rfl⟩,
      ?_, ?_, ?_⟩⟩
  · decide +kernel
  · intro t scan htotal hitems
    have hempty : (t.select {}).length = 0 := htotal
    have hone : (listEvents t scan {}).items.length = 1 := by
      rw [hitems]
      decide +kernel
    have hle := offset_add_length_items_le t scan {} (List.ne_nil_of_length_pos (by omega))
    omega
  · decide +kernel
  · decide +kernel
  · intro t _ hbefore hfacets
    -- the table has been empty or full
    have hrows : t.rows <+: [sampleStored] := hbefore.rows_append
    obtain ⟨rows, hnodup⟩ := t
    rcases List.prefix_cons_iff.mp hrows with rfl | ⟨rest, rfl, hrest⟩
    · have hid := congrArg Facets.deviceId hfacets
      change (weekFacets emptyStore).deviceId = (weekFacets filledStore).deviceId at hid
      revert hid
      decide +kernel
    · obtain rfl := List.prefix_nil.mp hrest
      have hvendor := congrArg Facets.vendor hfacets
      change (weekFacets filledStore).vendor = (weekFacets emptyStore).vendor at hvendor
      revert hvendor
      decide +kernel

end TelemetryApi
