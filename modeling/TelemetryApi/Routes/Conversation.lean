import TelemetryApi.Foundations.Sessions
import TelemetryApi.Routes.Drilldown
import TelemetryApi.Routes.FacetTotals
import TelemetryApi.Routes.Following
import TelemetryApi.Routes.Timeline

/-!
# The conversation of a client

A client posts batches and reads by all routes, one request after the other, while others
ingest. Whatever it has been shown it can rely on: the figures of the rollups, the facets
and the lists bound the totals of later lists, its own batches are counted from their
answer on, and a record stays the record of its id.
-/

namespace TelemetryApi

/-- A request of the client, with the plan of its query or the clock of the server. -/
inductive Call where
  | post (req : Request)
  | list (scan : Scan Event) (p : ListParams)
  | event (text : String)
  | facets (now : Int) (sinceHours : Bounded 1 (24 * 90))
  | recent (scan : Scan VendorStats) (now : Int) (hours : Bounded 1 (24 * 30))
  | timeline (scan : Scan StatsBucket) (now : Int) (hours : Bounded 1 (24 * 30))
      (bucketMinutes : Bounded 1 (60 * 24)) (kind : Option EventKind)

inductive Reply where
  | post (a : Answer)
  | list (r : EventListResponse)
  | event (outcome : Except PyExc EventOut)
  | facets (f : Facets)
  | recent (devices : List VendorStats)
  | timeline (buckets : List StatsBucket)

variable (settings : Settings) (rt : Runtime) {κ : Type} [LinearOrder κ] (collation : String → κ)

/-- The transactions of the client among the commits of others. -/
def Committed : List (List OrmRow) → Store → Store → Prop
  | [], store, store' => Store.Grows settings rt store store'
  | rows :: rest, store, store' => ∃ t t', Store.Grows settings rt store t ∧
      Store.Inserted rt rows t t' ∧ Committed rest t' store'

/-- One request of the client and its reply. -/
inductive Exchange : Store → Call × Reply → Store → Prop
  | post {store store' : Store} {req : Request} {durable : List (List OrmRow)} {a : Answer}
      (hrun : RequestRun settings rt req .received durable (.answered a))
      (hcommitted : Committed settings rt durable store store') :
      Exchange store (.post req, .post a) store'
  | list {store store' : Store} {scan : Scan Event} {p : ListParams} {r : EventListResponse}
      (h : Returns settings rt (listEventsScript scan p) store r store') :
      Exchange store (.list scan p, .list r) store'
  | event {store store' : Store} {text : String} {outcome : Except PyExc EventOut}
      (h : Returns settings rt (.query fun s => .done (getEvent s text)) store outcome store') :
      Exchange store (.event text, .event outcome) store'
  | facets {store store' : Store} {now : Int} {sinceHours : Bounded 1 (24 * 90)} {f : Facets}
      (h : Returns settings rt (eventFacetsScript collation now sinceHours) store f store') :
      Exchange store (.facets now sinceHours, .facets f) store'
  | recent {store store' : Store} {scan : Scan VendorStats} {now : Int}
      {hours : Bounded 1 (24 * 30)} {devices : List VendorStats}
      (h : Returns settings rt (.query fun s => .done (recentDevices s scan now hours)) store
        devices store') :
      Exchange store (.recent scan now hours, .recent devices) store'
  | timeline {store store' : Store} {scan : Scan StatsBucket} {now : Int}
      {hours : Bounded 1 (24 * 30)} {bucketMinutes : Bounded 1 (60 * 24)}
      {kind : Option EventKind} {buckets : List StatsBucket}
      (h : Returns settings rt
        (.query fun s => .done (timeline s scan now hours bucketMinutes kind)) store buckets
        store') :
      Exchange store (.timeline scan now hours bucketMinutes kind, .timeline buckets) store'

/-- The exchanges of a client, each with the state of the table behind it. -/
abbrev Conversation (store : Store) (run : List ((Call × Reply) × Store)) : Prop :=
  Along (Exchange settings rt collation) store run

/-! ## What a reply shows -/

/-- The figure of a device for a kind, or for all events. -/
def VendorStats.figure (stats : VendorStats) : Option EventKind → Nat
  | none => stats.total
  | some .crash => stats.crashes
  | some .error => stats.errors
  | some _ => 0

/-- The parameters of a request for the list of what a bucket counts. -/
def bucketParams (b : StatsBucket) (cutoff width : Int) (kind : Option EventKind)
    (limit : Bounded 1 500) : ListParams :=
  { since := some (if cutoff ≤ b.bucket then b.bucket else cutoff)
    untilTs := some (b.bucket + width)
    kind := kind.toList
    limit := limit }

/-- The reply shows that the table has a number of events which the filters select. -/
inductive Shows : Call × Reply → ListParams → Nat → Prop
  | total (scan : Scan Event) (p : ListParams) (r : EventListResponse) :
      Shows (.list scan p, .list r) p r.total
  | items {scan : Scan Event} {p : ListParams} {r : EventListResponse} {rows : List Event}
      (h : rows.map rowToOut = r.items) (p' : ListParams) :
      Shows (.list scan p, .list r) p' (rows.countP p'.selects)
  | record {text : String} {row : Event} {p' : ListParams} (h : p'.selects row) :
      Shows (.event text, .event (.ok (rowToOut row))) p' 1
  | facet {now : Int} {sinceHours : Bounded 1 (24 * 90)} {f : Facets} (column : FacetColumn)
      {v : String} (h : v ∈ column.values f) :
      Shows (.facets now sinceHours, .facets f)
        (column.pick { since := some (hoursBefore now sinceHours) } v) 1
  | device {scan : Scan VendorStats} {now : Int} {hours : Bounded 1 (24 * 30)}
      {devices : List VendorStats} {stats : VendorStats} (h : stats ∈ devices)
      (kind : Option EventKind) :
      Shows (.recent scan now hours, .recent devices)
        (deviceParams stats (hoursBefore now hours) kind .desc ⟨50, by decide⟩ 0)
        (stats.figure kind)
  | bucket {scan : Scan StatsBucket} {now : Int} {hours : Bounded 1 (24 * 30)}
      {bucketMinutes : Bounded 1 (60 * 24)} {kind : Option EventKind}
      {buckets : List StatsBucket} {b : StatsBucket} (h : b ∈ buckets) :
      Shows (.timeline scan now hours bucketMinutes kind, .timeline buckets)
        (bucketParams b (hoursBefore now hours) (minutes bucketMinutes) kind ⟨50, by decide⟩)
        b.count

/-- The reply shows it for narrower filters. -/
def ShowsWithin (p : ListParams) (e : Call × Reply) (n : Nat) : Prop :=
  ∃ p', Shows e p' n ∧ ∀ row, p'.selects row → p.selects row

/-- The events that a batch has stored, among those that the filters select; these do not
look at the id and the time of the transaction. -/
def postedCount (p : ListParams) : Call × Reply → Nat
  | (.post req, .post ⟨_, .response _, _⟩) =>
    match prepareBatch settings rt req with
    | .ok b => b.rows.countP fun row => (row.stored rt ⟨0⟩ 0).any p.selects
    | .error _ => 0
  | _ => 0

/-- A request for the id of the record, in any of the forms of a UUID, is answered with it. -/
def Fetches (e : Call × Reply) (item : EventOut) : Prop :=
  ∀ text, e.1 = .event text → Uuid.ofText text = Uuid.ofText item.id → e.2 = .event (.ok item)

/-- The records of a reply. -/
def Reply.records : Reply → List EventOut
  | .list r => r.items
  | .event (.ok item) => [item]
  | _ => []

variable {settings rt collation} {store store' : Store}

/-! ## What an exchange does -/

theorem returns_query_iff {α : Type} {f : Store → α} {answer : α} :
    Returns settings rt (.query fun s => .done (f s)) store answer store' ↔
      ∃ t, Store.Grows settings rt store t ∧ Store.Grows settings rt t store' ∧ f t = answer := by
  simp only [eq_comm (b := answer)]
  exact Script.reaches_done_iff

theorem RequestRun.keeps {req : Request} {s s' : Stage} {es : List (List OrmRow)}
    (h : RequestRun settings rt req s es s') :
    ∀ durable, req.Keeps settings rt s durable → req.Keeps settings rt s' (durable ++ es) := by
  induction h with
  | refl s => simp
  | @step s s' s'' out es hstep _ ih =>
    intro durable hkeeps
    have hrest := ih (durable ++ out.toList) (hkeeps.step hstep)
    rwa [List.append_assoc] at hrest

theorem RequestRun.accounted {req : Request} {durable : List (List OrmRow)} {a : Answer}
    (h : RequestRun settings rt req .received durable (.answered a)) :
    ∃ outcome, a = answerOf outcome ∧ Accounted settings rt req durable outcome :=
  h.keeps [] rfl

theorem Committed.grows {req : Request} {durable : List (List OrmRow)}
    (hdurable : AllOrNone settings rt req durable)
    (h : Committed settings rt durable store store') : Store.Grows settings rt store store' := by
  obtain rfl | ⟨b, hb, rfl⟩ := hdurable
  · exact h
  · obtain ⟨t, t', hbefore, hinserted, hafter⟩ := h
    exact (hbefore.tail ⟨req, b, hb, hinserted⟩).trans hafter

theorem Exchange.grows {e : Call × Reply} (h : Exchange settings rt collation store e store') :
    Store.Grows settings rt store store' := by
  cases h with
  | post hrun hcommitted =>
    obtain ⟨outcome, -, hacc⟩ := hrun.accounted
    exact hcommitted.grows hacc.allOrNone
  | list h => exact h.grows
  | event h =>
    obtain ⟨t, hbefore, hafter, -⟩ := returns_query_iff.mp h
    exact hbefore.trans hafter
  | @facets _ now sinceHours f h =>
    obtain ⟨s₁, s₂, s₃, s₄, h₁, h₂, h₃, h₄, hend, -⟩ :=
      (returns_eventFacets_iff collation now sinceHours f).mp h
    exact (((h₁.trans h₂).trans h₃).trans h₄).trans hend
  | recent h =>
    obtain ⟨t, hbefore, hafter, -⟩ := returns_query_iff.mp h
    exact hbefore.trans hafter
  | timeline h =>
    obtain ⟨t, hbefore, hafter, -⟩ := returns_query_iff.mp h
    exact hbefore.trans hafter

/-- The filters do not look at the id and the time of the transaction. -/
theorem any_stored {row : OrmRow} {id : Uuid} {receivedAt : Int} {event : Event}
    (h : row.stored rt id receivedAt = some event) (p : ListParams) :
    (row.stored rt ⟨0⟩ 0).any p.selects = p.selects event := by
  rw [OrmRow.stored_id (OrmRow.stored_receivedAt h 0) ⟨0⟩]
  rfl

theorem Store.Inserted.length_select {rows : List OrmRow} (h : Store.Inserted rt rows store store')
    (p : ListParams) :
    (store'.select p).length = (store.select p).length +
      rows.countP fun row => (row.stored rt ⟨0⟩ 0).any p.selects := by
  obtain ⟨receivedAt, news, hnews, hrows⟩ := h
  have hcount : news.countP p.selects =
      rows.countP fun row => (row.stored rt ⟨0⟩ 0).any p.selects := by
    clear hrows
    induction hnews with
    | nil => rfl
    | cons hrow _ ih =>
      obtain ⟨id, hrow⟩ := hrow
      rw [List.countP_cons, List.countP_cons, ih, any_stored hrow]
  rw [Store.select, hrows, List.filter_append, List.length_append, ← hcount,
    List.countP_eq_length_filter]
  rfl

/-- What the client posts is counted behind the answer. -/
theorem Exchange.postedCount_le {e : Call × Reply}
    (h : Exchange settings rt collation store e store') (p : ListParams) :
    (store.select p).length + postedCount settings rt p e ≤ (store'.select p).length := by
  have hgrows := h.grows
  cases h with
  | @post _ req durable a hrun hcommitted =>
    obtain ⟨outcome, rfl, hacc⟩ := hrun.accounted
    cases outcome with
    | error err =>
      have hnone : postedCount settings rt p (.post req, .post (answerOf (.error err))) = 0 := by
        cases err <;> rfl
      rw [hnone]
      exact hgrows.length_select_le p
    | ok r =>
      obtain ⟨b, hb, rfl, rfl⟩ := hacc
      obtain ⟨t, t', hbefore, hinserted, hafter⟩ := hcommitted
      have hposted : postedCount settings rt p (.post req, .post (answerOf (.ok b.response))) =
          b.rows.countP fun row => (row.stored rt ⟨0⟩ 0).any p.selects := by
        simp only [postedCount, answerOf, hb.2]
      have hlength := hinserted.length_select p
      have hle := hbefore.length_select_le p
      have hle' := Store.Grows.length_select_le hafter p
      omega
  | _ => exact hgrows.length_select_le p

/-! ## Records -/

theorem getEvent_eq_ok {text : String} {item : EventOut} (h : getEvent store text = .ok item) :
    store.Visible item := by
  rw [Store.visible_iff]
  unfold getEvent at h
  generalize Uuid.ofText text = id at h
  cases id with
  | error e => cases h
  | ok id =>
    cases hfind : store.rows.find? fun row => row.id = id with
    | none =>
      simp only [hfind] at h
      cases h
    | some row =>
      simp only [hfind] at h
      exact ⟨row, List.mem_of_find?_eq_some hfind, Except.ok.inj h⟩

theorem getEvent_congr {text text' : String} (h : Uuid.ofText text = Uuid.ofText text') :
    getEvent store text = getEvent store text' := by
  unfold getEvent
  rw [h]

theorem getEvent_of_visible {item : EventOut} (h : store.Visible item) {text : String}
    (htext : Uuid.ofText text = Uuid.ofText item.id) : getEvent store text = .ok item := by
  obtain ⟨row, hrow, rfl⟩ := Store.visible_iff.mp h
  exact (getEvent_congr htext).trans (getEvent_rowToOut store hrow)

theorem Store.Grows.visible (h : Store.Grows settings rt store store') {item : EventOut}
    (hitem : store.Visible item) : store'.Visible item := by
  obtain ⟨row, hrow, rfl⟩ := Store.visible_iff.mp hitem
  exact Store.visible_iff.mpr ⟨row, h.rows_append.subset hrow, rfl⟩

theorem Exchange.visible {e : Call × Reply} (h : Exchange settings rt collation store e store')
    {item : EventOut} (hitem : item ∈ e.2.records) : store'.Visible item := by
  cases h with
  | @list _ scan p r h =>
    obtain ⟨counted, listed, -, -, hend, rfl⟩ := (returns_listEvents_iff scan p r).mp h
    obtain ⟨row, hrow, rfl⟩ := List.mem_map.mp hitem
    have hlisted := (page_sublist _ _ _).subset hrow
    have hselected := (isResult_orderBy p.order.key scan _).1.mem_iff.mp hlisted
    have hmem : row ∈ listed.rows := (List.mem_filter.mp hselected).1
    exact hend.visible (Store.visible_iff.mpr ⟨row, hmem, rfl⟩)
  | @event _ text outcome h =>
    obtain ⟨t, -, hend, rfl⟩ := returns_query_iff.mp h
    cases hget : getEvent t text with
    | error err => simp [Reply.records, hget] at hitem
    | ok item' =>
      rw [hget] at hitem
      obtain rfl := List.mem_singleton.mp hitem
      exact Store.Grows.visible hend (getEvent_eq_ok hget)
  | _ => cases hitem

/-- A record that is there when the request begins is the answer for its id. -/
theorem Exchange.event_eq {text : String} {reply : Reply}
    (h : Exchange settings rt collation store (.event text, reply) store') {item : EventOut}
    (hitem : store.Visible item) (htext : Uuid.ofText text = Uuid.ofText item.id) :
    reply = .event (.ok item) := by
  cases h with
  | event h =>
    obtain ⟨t, hbefore, -, rfl⟩ := returns_query_iff.mp h
    rw [getEvent_of_visible (Store.Grows.visible hbefore hitem) htext]

/-! ## Figures -/

theorem countP_le_length_select {rows : List Event} (hnodup : rows.Nodup)
    (hsubset : rows ⊆ store.rows) (p : ListParams) :
    rows.countP p.selects ≤ (store.select p).length := by
  rw [Store.select, ← List.countP_eq_length_filter]
  exact (hnodup.subperm hsubset).countP_le _

theorem one_le_length_select {row : Event} (hrow : row ∈ store.rows) {p : ListParams}
    (h : p.selects row) : 1 ≤ (store.select p).length :=
  List.length_pos_of_mem (List.mem_filter.mpr ⟨hrow, h⟩)

theorem VendorStats.covers_self (stats : VendorStats) : stats.covers stats.device := by
  simp [covers, textFilter, VendorStats.device]

/-- A figure of a device is at most the total of its list. -/
theorem figure_le_length_select {scan : Scan VendorStats} {now : Int}
    {hours : Bounded 1 (24 * 30)} {stats : VendorStats}
    (h : stats ∈ recentDevices store scan now hours) (kind : Option EventKind) (order : SortOrder)
    (limit : Bounded 1 500) (offset : Nat) :
    stats.figure kind ≤
      (store.select (deviceParams stats (hoursBefore now hours) kind order limit offset)).length := by
  have hle : ∀ q : Event → Bool,
      ((store.since (hoursBefore now hours)).filter fun row => row.device = stats.device).countP q ≤
        ((store.since (hoursBefore now hours)).filter fun row => stats.covers row.device).countP q := by
    intro q
    rw [List.countP_filter, List.countP_filter]
    apply List.countP_mono_left
    intro row _ hrow
    obtain ⟨hq, hdevice⟩ := Bool.and_eq_true_iff.mp hrow
    rw [Bool.and_eq_true_iff, of_decide_eq_true hdevice]
    exact ⟨hq, stats.covers_self⟩
  have hfigure : ∀ (figure : VendorStats → Nat) (q : Event → Bool),
      (∀ g, figure (vendorStats g) = g.2.countP q) → figure stats ≤
        ((store.since (hoursBefore now hours)).filter fun row => stats.covers row.device).countP q := by
    intro figure q hcount
    rw [figure_eq_countP figure q hcount h]
    exact hle q
  have htotal := total_listEvents_device store .id stats (hoursBefore now hours) kind order limit
    offset
  show _ ≤ (listEvents store .id
    (deviceParams stats (hoursBefore now hours) kind order limit offset)).total
  rw [htotal]
  cases kind with
  | none =>
    exact hfigure (·.total) (fun _ => true) fun g => congrFun List.countP_true.symm g.2
  | some kind =>
    cases kind with
    | crash => exact hfigure (·.crashes) (fun row => row.kind = .crash) fun _ => rfl
    | error => exact hfigure (·.errors) (fun row => row.kind = .error) fun _ => rfl
    | _ => exact Nat.zero_le _

/-- The list of a bucket has what the bucket counts. -/
theorem length_select_bucketParams {scan : Scan StatsBucket} {now : Int}
    {hours : Bounded 1 (24 * 30)} {bucketMinutes : Bounded 1 (60 * 24)}
    {kind : Option EventKind} {b : StatsBucket} {limit : Bounded 1 500}
    (h : b ∈ timeline store scan now hours bucketMinutes kind) :
    (store.select
      (bucketParams b (hoursBefore now hours) (minutes bucketMinutes) kind limit)).length =
      b.count := by
  rw [timelineLaw.count_eq b h, Store.select, ← List.countP_eq_length_filter]
  apply List.countP_congr
  intro row _
  -- the later of the two instants
  have hlater : (if hoursBefore now hours ≤ b.bucket then b.bucket else hoursBefore now hours) ≤
      row.ts ↔ hoursBefore now hours ≤ row.ts ∧ b.bucket ≤ row.ts := by
    split_ifs <;> omega
  cases kind with
  | none =>
    simp [bucketParams, ListParams.selects, textFilter, choiceFilter, searchFilter, hlater,
      and_assoc]
  | some kind =>
    simp [bucketParams, ListParams.selects, textFilter, choiceFilter, searchFilter, hlater]
    tauto

theorem FacetColumn.mem_values {column : FacetColumn} {now : Int}
    {sinceHours : Bounded 1 (24 * 90)} {f : Facets}
    (h : Returns settings rt (eventFacetsScript collation now sinceHours) store f store')
    {v : String} (hv : v ∈ column.values f) :
    ∃ t, Store.Grows settings rt t store' ∧
      v ∈ distinctTexts t collation (hoursBefore now sinceHours) column.text := by
  obtain ⟨s₁, s₂, s₃, s₄, -, h₂, h₃, h₄, hend, rfl⟩ :=
    (returns_eventFacets_iff collation now sinceHours f).mp h
  cases column with
  | vendor => exact ⟨s₁, ((h₂.trans h₃).trans h₄).trans hend, hv⟩
  | deviceName => exact ⟨s₂, (h₃.trans h₄).trans hend, hv⟩
  | deviceVersion => exact ⟨s₃, h₄.trans hend, hv⟩
  | deviceId => exact ⟨s₄, hend, hv⟩

/-- What a reply shows the table has behind the exchange. -/
theorem Exchange.le_length_select {e : Call × Reply}
    (h : Exchange settings rt collation store e store') {p : ListParams} {n : Nat}
    (hshows : Shows e p n) : n ≤ (store'.select p).length := by
  cases hshows with
  | total scan p r =>
    cases h with
    | list h =>
      obtain ⟨counted, listed, -, hlisted, hend, rfl⟩ := (returns_listEvents_iff scan p r).mp h
      exact Store.Grows.length_select_le (hlisted.trans hend) p
  | @items scan p' r rows hrows p =>
    cases h with
    | list h =>
      obtain ⟨counted, listed, -, -, hend, rfl⟩ := (returns_listEvents_iff scan p' r).mp h
      have hpage := rowToOut_injective.list_map hrows
      have hresult := isResult_orderBy p'.order.key scan (listed.select p')
      have hnodup : rows.Nodup := by
        rw [hpage]
        exact hresult.nodup_page (listed.nodup_select p') _ _
      apply countP_le_length_select hnodup
      intro row hrow
      rw [hpage] at hrow
      have hselected := hresult.1.mem_iff.mp ((page_sublist _ _ _).subset hrow)
      exact hend.rows_append.subset (List.mem_filter.mp hselected).1
  | record hselects =>
    have hvisible : store'.Visible (rowToOut _) := h.visible (List.mem_singleton_self _)
    obtain ⟨row, hrow, heq⟩ := Store.visible_iff.mp hvisible
    obtain rfl := rowToOut_injective heq
    exact one_le_length_select hrow hselects
  | @facet now sinceHours f column v hv =>
    cases h with
    | facets h =>
      obtain ⟨t, hend, hmem⟩ := FacetColumn.mem_values h hv
      obtain ⟨hne, row, hrow, rfl⟩ := mem_distinctTexts.mp hmem
      obtain ⟨hstored, hsince⟩ := List.mem_filter.mp hrow
      apply one_le_length_select (hend.rows_append.subset hstored)
      rw [column.selects_pick (by cases column <;> rfl) hne]
      simpa [ListParams.selects, textFilter, choiceFilter, searchFilter] using hsince
  | device hstats kind =>
    cases h with
    | recent h =>
      obtain ⟨t, -, hend, rfl⟩ := returns_query_iff.mp h
      exact (figure_le_length_select hstats kind _ _ _).trans
        (Store.Grows.length_select_le hend _)
  | bucket hb =>
    cases h with
    | timeline h =>
      obtain ⟨t, -, hend, rfl⟩ := returns_query_iff.mp h
      rw [← length_select_bucketParams hb]
      exact Store.Grows.length_select_le hend _

/-! ## The conversation -/

/-- Without filters, what a batch has stored is what its answer says. -/
theorem Exchange.postedCount_eq {req : Request} {status : Nat} {r : IngestResponse}
    {headers : List (String × String)}
    (h : Exchange settings rt collation store (.post req, .post ⟨status, .response r, headers⟩)
      store') :
    (postedCount settings rt {} (.post req, .post ⟨status, .response r, headers⟩) : Int) =
      r.accepted := by
  cases h with
  | post hrun hcommitted =>
    obtain ⟨outcome, heq, hacc⟩ := hrun.accounted
    cases outcome with
    | error err => cases err <;> cases heq
    | ok r' =>
      obtain ⟨b, hb, rfl, rfl⟩ := hacc
      cases heq
      obtain ⟨t, t', -, hinserted, -⟩ := hcommitted
      have hlength := hinserted.length_select {}
      rw [Store.select_all, Store.select_all] at hlength
      obtain ⟨receivedAt, news, hnews, hrows⟩ := hinserted
      rw [hrows, List.length_append, ← hnews.length_eq] at hlength
      simp only [postedCount, hb.2, Batch.response]
      omega

variable (settings rt collation store) in
/-- However others ingest meanwhile: in a conversation every list has at least the events
that its filters let the client expect, by what it has been shown and what it has posted
since; without filters these are the accepted ones; and once a record has been read, each
request for its id is answered with it. -/
theorem conversation_reliable (run : List ((Call × Reply) × Store))
    (hrun : Conversation settings rt collation store run) :
    (∀ before after scan p r, run.map (·.1) = before ++ (.list scan p, .list r) :: after →
      ∀ n, Expects (postedCount settings rt p) (ShowsWithin p) before n → n ≤ r.total) ∧
    (∀ x ∈ run, ∀ req status r headers, x.1 = (.post req, .post ⟨status, .response r, headers⟩) →
      (postedCount settings rt {} x.1 : Int) = r.accepted) ∧
    run.Pairwise fun x y => ∀ item, item ∈ x.1.2.records → Fetches y.1 item := by
  refine ⟨?_, ?_, ?_⟩
  · intro before after scan p r hmap n hn
    obtain ⟨first, t, hfirst, hbefore, hlist⟩ := hrun.split hmap
    have hwithin : ∀ s e s' n, Exchange settings rt collation s e s' → ShowsWithin p e n →
        n ≤ (s'.select p).length := by
      intro s e s' n h hshown
      obtain ⟨p', hshows, hnarrow⟩ := hshown
      exact (h.le_length_select hshows).trans (List.monotone_filter_right _ hnarrow).length_le
    have hle := hn.le_endState (fun s : Store => (s.select p).length)
      (fun _ _ _ h => h.postedCount_le p) hwithin hbefore hfirst
    cases hlist with
    | list h =>
      obtain ⟨counted, listed, hcounted, -, -, rfl⟩ := (returns_listEvents_iff scan p r).mp h
      exact hle.trans (hcounted.length_select_le p)
  · intro x hx req status r headers heq
    obtain ⟨before, after, rfl⟩ := List.append_of_mem hx
    obtain ⟨-, hstep, -⟩ := Along.append_iff.mp hrun
    rw [heq] at hstep ⊢
    exact hstep.postedCount_eq
  · apply Along.pairwise Store.Visible (fun e item => item ∈ e.2.records) Fetches _ _ _ hrun
    · intro s e s' item h hitem
      exact h.visible hitem
    · intro s e s' item h hitem
      exact h.grows.visible hitem
    · rintro s ⟨call, reply⟩ s' item h hitem text rfl hid
      exact h.event_eq hitem hid

/-- A client posts the batch of `mixedRequest`, lists the table and fetches what it finds. -/
theorem conversation_reliable_sample :
    ∃ r : IngestResponse,
      (postedCount {} sampleRuntime {} (.post mixedRequest, .post (answerOf (.ok r))) : Int) =
        r.accepted ∧
      postedCount {} sampleRuntime {} (.post mixedRequest, .post (answerOf (.ok r))) ≤
        (listEvents filledStore .id {}).total ∧
      Fetches (.event sampleStored.id.str, .event (getEvent filledStore sampleStored.id.str))
        (rowToOut sampleStored) := by
  obtain ⟨b, hprep, hstored⟩ := prepares_sample sampleStored.receivedAt
  have hpost : Exchange {} sampleRuntime String.length emptyStore
      (.post mixedRequest, .post (answerOf (.ok b.response))) filledStore :=
    .post (RequestRun.serve hprep)
      ⟨emptyStore, filledStore, .refl, ⟨_, [sampleStored], hstored, rfl⟩, .refl⟩
  have hlist : Exchange {} sampleRuntime String.length filledStore
      (.list .id {}, .list (listEvents filledStore .id {})) filledStore :=
    .list (returns_listEvents {} sampleRuntime .id {} filledStore)
  have hevent : Exchange {} sampleRuntime String.length filledStore
      (.event sampleStored.id.str, .event (getEvent filledStore sampleStored.id.str)) filledStore :=
    .event (returns_query_iff.mpr ⟨filledStore, .refl, .refl, rfl⟩)
  obtain ⟨htotal, hposted, hrecords⟩ := conversation_reliable {} sampleRuntime String.length
    emptyStore [(_, filledStore), (_, filledStore), (_, filledStore)]
    (.cons hpost (.cons hlist (.cons hevent (.nil _ _))))
  refine ⟨b.response, hposted _ List.mem_cons_self _ _ _ _ rfl, ?_, ?_⟩
  · have hexpected := htotal [_] [_] .id {} _ rfl _ (.gained _ .nothing)
    rwa [Nat.zero_add] at hexpected
  · have hitem : rowToOut sampleStored ∈ (listEvents filledStore .id {}).items := by
      decide +kernel
    exact List.rel_of_pairwise_cons (List.pairwise_cons.mp hrecords).2 List.mem_cons_self _ hitem

end TelemetryApi
