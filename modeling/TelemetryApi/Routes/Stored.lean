import TelemetryApi.Routes.GetEvent
import TelemetryApi.Routes.Persist
import TelemetryApi.Routes.Status

/-!
# From the wire to the reader

The rows of an `INSERT` as rows of the table, and what the reading routes return of
an event that was accepted.
-/

namespace TelemetryApi

variable (rt : Runtime)

/-! ## Rows in the table -/

/-- The row of the table, with the id and the time of its transaction. -/
def OrmRow.stored (row : OrmRow) (id : Uuid) (receivedAt : Int) : Option Event :=
  (row.ts.toUtc rt).map fun ts =>
    { id := id
      receivedAt := receivedAt
      vendor := row.vendor
      deviceName := row.deviceName
      deviceVersion := row.deviceVersion
      deviceId := row.deviceId
      sessionId := row.sessionId
      userId := row.userId
      platform := row.platform
      maxVersion := row.maxVersion
      kind := row.kind
      level := row.level
      name := row.name
      message := row.message
      ts := ts
      tsMs := row.tsMs
      value := row.value
      unit := row.unit
      props := row.props }

variable {rt} in
/-- The same row at another time. -/
theorem OrmRow.stored_receivedAt {row : OrmRow} {id : Uuid} {receivedAt : Int} {event : Event}
    (h : row.stored rt id receivedAt = some event) (receivedAt' : Int) :
    row.stored rt id receivedAt' = some { event with receivedAt := receivedAt' } := by
  obtain ⟨ts, hts, rfl⟩ := Option.map_eq_some_iff.mp h
  exact Option.map_eq_some_iff.mpr ⟨ts, hts, rfl⟩

/-- The second table is the first after a committed `INSERT` of the rows. -/
def Store.Inserted (rows : List OrmRow) (store store' : Store) : Prop :=
  ∃ receivedAt news,
    List.Forall₂ (fun row event => ∃ id, OrmRow.stored rt row id receivedAt = some event) rows news ∧
      store'.rows = store.rows ++ news

/-- An item that some page of the unfiltered list has. -/
def Store.Visible (store : Store) (item : EventOut) : Prop :=
  ∃ scan offset, item ∈ (listEvents store scan { offset := offset }).items

theorem Store.select_all (store : Store) (offset : Nat) :
    store.select { offset := offset } = store.rows :=
  List.filter_eq_self.mpr fun _ _ => rfl

/-- The list shows the rows of the table. -/
theorem Store.visible_iff {store : Store} {item : EventOut} :
    store.Visible item ↔ ∃ row ∈ store.rows, rowToOut row = item := by
  constructor
  · rintro ⟨scan, offset, hitem⟩
    rw [listEvents, store.select_all] at hitem
    obtain ⟨row, hrow, rfl⟩ := List.mem_map.mp hitem
    have hmem := List.mem_of_mem_drop (List.mem_of_mem_take hrow)
    exact ⟨row, (isResult_orderBy _ scan store.rows).1.mem_iff.mp hmem, rfl⟩
  · rintro ⟨row, hrow, rfl⟩
    -- the page that begins at the row
    have hmem := (isResult_orderBy SortOrder.desc.key .id store.rows).1.mem_iff.mpr hrow
    obtain ⟨i, hi⟩ := List.mem_iff_getElem?.mp hmem
    refine ⟨.id, i, ?_⟩
    rw [listEvents, store.select_all]
    exact List.mem_map.mpr ⟨row, mem_page hi le_rfl (by simp), rfl⟩

/-- What new rows add to the list. -/
theorem Store.visible_of_append {store store' : Store} {news : List Event}
    (h : store'.rows = store.rows ++ news) :
    (∀ item, store'.Visible item ↔ store.Visible item ∨ item ∈ news.map rowToOut) ∧
      (news.map rowToOut).Nodup ∧
      ∀ item ∈ news.map rowToOut,
        ¬ store.Visible item ∧ getEvent store' item.id = .ok item := by
  have hids := store'.ids_nodup
  rw [h, List.map_append, List.nodup_append] at hids
  obtain ⟨-, hnews, hdisjoint⟩ := hids
  refine ⟨fun item => ?_, hnews.of_map.map rowToOut_injective, fun item hitem => ?_⟩
  · rw [visible_iff, visible_iff, h, List.mem_map]
    simp only [List.mem_append, or_and_right, exists_or]
  · obtain ⟨row, hrow, rfl⟩ := List.mem_map.mp hitem
    have hmem : row ∈ store'.rows := h ▸ List.mem_append_right _ hrow
    refine ⟨fun hvisible => ?_, getEvent_rowToOut store' hmem⟩
    obtain ⟨old, hold, heq⟩ := visible_iff.mp hvisible
    obtain rfl := rowToOut_injective heq
    exact hdisjoint old.id (List.mem_map_of_mem hold) old.id (List.mem_map_of_mem hrow) rfl

/-! ## Records -/

/-- The item has the fields of the event, and the instant of its timestamp. -/
structure IngestEvent.RecordedAs (ev : IngestEvent) (item : EventOut) : Prop where
  vendor : item.vendor = ev.vendor
  deviceName : item.deviceName = ev.deviceName
  deviceVersion : item.deviceVersion = ev.deviceVersion
  deviceId : item.deviceId = ev.deviceId
  sessionId : item.sessionId = ev.sessionId
  userId : item.userId = ev.userId
  platform : item.platform = ev.platform
  maxVersion : item.maxVersion = ev.maxVersion
  kind : item.kind = ev.type
  level : item.level = ev.level
  name : item.name = ev.name
  message : item.message = ev.message.map (·.val)
  ts : ∀ offset, ev.ts.offset = some offset → item.ts = ev.ts.wall - offset * 1000000
  tsMs : item.tsMs = ev.tsMs
  value : item.value = ev.value
  unit : item.unit = ev.unit.map (·.val)
  props : item.props = ev.props

theorem DateTime.toUtc_of_offset {t : DateTime} {offset utc : Int} (ho : t.offset = some offset)
    (h : t.toUtc rt = some utc) : utc = t.wall - offset * 1000000 := by
  rw [DateTime.toUtc, ho] at h
  simp only [Option.ite_none_right_eq_some, Option.some.injEq] at h
  exact h.2.symm

variable {rt} in
/-- The two projections keep every field in its place. -/
theorem recordedAs_of_stored {ev : IngestEvent} {row : OrmRow} {id : Uuid} {receivedAt : Int}
    {event : Event} (hrow : toOrmRow ev = .ok row) (h : row.stored rt id receivedAt = some event) :
    ev.RecordedAs (rowToOut event) := by
  obtain ⟨kind, level, hok, hkind, hlevel⟩ := toOrmRow_eq_ok ev
  obtain rfl : rowWith ev kind level = row := by simpa [hok] using hrow
  obtain ⟨utc, hutc, rfl⟩ := Option.map_eq_some_iff.mp h
  constructor
  case kind => exact hkind
  case level => exact hlevel
  case ts => exact fun offset ho => DateTime.toUtc_of_offset rt ho hutc
  all_goals rfl

/-! ## The wire fields -/

/-- The keys that `IngestEvent` reads. -/
def wireKeys : List String :=
  ["vendor", "device_name", "device_version", "device_id", "session_id", "user_id", "platform",
    "max_version", "type", "level", "name", "message", "ts", "ts_ms", "value", "unit", "props"]

/-- The objects agree on every wire field. -/
def SameFields (o o' : JsonObject) : Prop := ∀ key ∈ wireKeys, o.get key = o'.get key

theorem modelValidate_of_readFrom {o : JsonObject} {ev : IngestEvent} (h : ev.ReadFrom rt o) :
    modelValidate rt o = .ok ev := by
  rw [modelValidate, validateEnvelope, h.vendor, h.deviceName, h.deviceVersion, h.deviceId,
    h.sessionId, h.userId, h.platform, h.maxVersion, h.type, h.level, h.name, h.message, h.ts,
    h.tsMs, h.value, h.unit, h.props]
  rfl

theorem required_congr {α : Type} {o o' : JsonObject} {key : String}
    {field : String → Json → FieldResult α} {a : α} (hkey : o.get key = o'.get key)
    (h : required o key field = .ok a) : required o' key field = .ok a := by
  obtain ⟨v, hget, hfield⟩ := required_eq_ok h
  rw [required, ← hkey, hget]
  exact hfield

theorem defaulted_congr {α : Type} {o o' : JsonObject} {key : String} {default : α}
    {field : String → Json → FieldResult α} (hkey : o.get key = o'.get key) :
    defaulted o' key default field = defaulted o key default field := by
  rw [defaulted, defaulted, hkey]

/-- Nothing but the wire fields of an object goes into its event. -/
theorem modelValidate_congr {o o' : JsonObject} {ev : IngestEvent} (hsame : SameFields o o')
    (h : modelValidate rt o = .ok ev) : modelValidate rt o' = .ok ev := by
  have hread := readFrom_of_modelValidate rt h
  simp only [SameFields, wireKeys, List.forall_mem_cons] at hsame
  obtain ⟨h1, h2, h3, h4, h5, h6, h7, h8, h9, h10, h11, h12, h13, h14, h15, h16, h17, -⟩ := hsame
  apply modelValidate_of_readFrom rt
  constructor
  case vendor => exact required_congr h1 hread.vendor
  case deviceName => rw [defaulted_congr h2, hread.deviceName]
  case deviceVersion => rw [defaulted_congr h3, hread.deviceVersion]
  case deviceId => exact required_congr h4 hread.deviceId
  case sessionId => exact required_congr h5 hread.sessionId
  case userId => rw [defaulted_congr h6, hread.userId]
  case platform => rw [defaulted_congr h7, hread.platform]
  case maxVersion => rw [defaulted_congr h8, hread.maxVersion]
  case type => exact required_congr h9 hread.type
  case level => rw [defaulted_congr h10, hread.level]
  case name => exact required_congr h11 hread.name
  case message => rw [defaulted_congr h12, hread.message]
  case ts => exact required_congr h13 hread.ts
  case tsMs => exact required_congr h14 hread.tsMs
  case value => rw [defaulted_congr h15, hread.value]
  case unit => rw [defaulted_congr h16, hread.unit]
  case props => rw [validateProps, defaulted_congr h17, ← validateProps, hread.props]

/-! ## Ingest and read -/

variable (settings : Settings) (db : Database) (durable : List OrmRow)

/-- The schema accepts the object. -/
def accepted (o : JsonObject) : Bool := (acceptedRow rt o).isSome

variable {rt} in
theorem forall₂_accepted {R : OrmRow → Event → Prop} {objects : List JsonObject}
    {news : List Event} (h : List.Forall₂ R (acceptedRows rt objects) news) :
    List.Forall₂ (fun o event => ∃ row, acceptedRow rt o = some row ∧ R row event)
      (objects.filter (accepted rt)) news := by
  induction objects generalizing news with
  | nil =>
    cases h
    exact .nil
  | cons o objects ih =>
    cases hrow : acceptedRow rt o with
    | none =>
      have hskip : accepted rt o = false := by rw [accepted, hrow]; rfl
      rw [acceptedRows, List.filterMap_cons_none hrow] at h
      rw [List.filter_cons_of_neg (by simp [hskip])]
      exact ih h
    | some row =>
      have hkeep : accepted rt o = true := by rw [accepted, hrow]; rfl
      rw [acceptedRows, List.filterMap_cons_some hrow] at h
      rw [List.filter_cons_of_pos hkeep]
      obtain ⟨event, rest, hevent, hrest, rfl⟩ := List.forall₂_cons_left_iff.mp h
      exact .cons ⟨row, hrow, hevent⟩ (ih hrest)

variable {rt} in
/-- What is stored for an object is the record of every object with its wire fields. -/
theorem recorded_of_stored {o : JsonObject} {row : OrmRow} {id : Uuid} {receivedAt : Int}
    {event : Event} (hrow : acceptedRow rt o = some row)
    (hstored : row.stored rt id receivedAt = some event) (o' : JsonObject)
    (hsame : SameFields o o') :
    ∃ ev, modelValidate rt o' = .ok ev ∧ ev.RecordedAs (rowToOut event) := by
  obtain ⟨ev, hev, hok⟩ := (acceptedRow_eq_some rt).mp hrow
  exact ⟨ev, modelValidate_congr rt hsame hev, recordedAs_of_stored hok hstored⟩

/-- Once a request is answered with 200 and its rows are in the table, the list has
one new item for each object that the schema accepts, the item is what its id
fetches, and it records the wire fields of the object and nothing else of it. -/
theorem ingest_visible (req : Request) (store store' : Store)
    (hanswer : (postEvents settings rt db durable req).1.status = 200)
    (hinserted : Store.Inserted rt (postEvents settings rt db durable req).2 store store') :
    ∃ items,
      List.Forall₂
        (fun o item => ∀ o', SameFields o o' →
          ∃ ev, modelValidate rt o' = .ok ev ∧ ev.RecordedAs item)
        ((req.objects rt).filter (accepted rt)) items ∧
      (∀ item, store'.Visible item ↔ store.Visible item ∨ item ∈ items) ∧ items.Nodup ∧
      ∀ item ∈ items, ¬ store.Visible item ∧ getEvent store' item.id = .ok item := by
  obtain ⟨-, b, hb, hpost⟩ := postEvents_of_status settings rt db durable hanswer
  obtain ⟨-, hparse, -, -, hrows, -⟩ := (prepareBatch_eq_ok_iff settings rt).mp hb
  rw [objects_of_parseBody hparse] at hrows
  have hadded : (postEvents settings rt db durable req).2 = acceptedRows rt (req.objects rt) := by
    rw [hpost]
    exact hrows
  rw [hadded] at hinserted
  obtain ⟨receivedAt, news, hnews, hstore⟩ := hinserted
  refine ⟨news.map rowToOut, ?_, Store.visible_of_append hstore⟩
  rw [List.forall₂_map_right_iff]
  have hobjects := forall₂_accepted hnews
  apply List.Forall₂.imp _ hobjects
  rintro o event ⟨row, hrow, id, hstored⟩
  exact recorded_of_stored hrow hstored

/-- The row of the event of `sampleEvent`. -/
def sampleStored : Event where
  id := ⟨1⟩
  receivedAt := 1779548401000000
  vendor := "v"
  deviceName := ""
  deviceVersion := ""
  deviceId := "d"
  sessionId := "s"
  userId := ""
  platform := ""
  maxVersion := ""
  kind := .event
  level := .info
  name := "n"
  message := none
  ts := 1779548400000000
  tsMs := 1779548400000
  value := none
  unit := none
  props := []

theorem ingest_visible_sample :
    ∃ items,
      List.Forall₂
        (fun o item => ∀ o', SameFields o o' →
          ∃ ev, modelValidate sampleRuntime o' = .ok ev ∧ ev.RecordedAs item)
        ((mixedRequest.objects sampleRuntime).filter (accepted sampleRuntime)) items ∧
      (∀ item, Store.Visible ⟨[sampleStored], by decide⟩ item ↔
        Store.Visible ⟨[], by decide⟩ item ∨ item ∈ items) ∧ items.Nodup ∧
      ∀ item ∈ items, ¬ Store.Visible ⟨[], by decide⟩ item ∧
        getEvent ⟨[sampleStored], by decide⟩ item.id = .ok item := by
  have hrows : (postEvents {} sampleRuntime .accepting [] mixedRequest).2.map
      (fun row => row.stored sampleRuntime ⟨1⟩ 1779548401000000) = [some sampleStored] := by
    decide +kernel
  have hanswer : (postEvents {} sampleRuntime .accepting [] mixedRequest).1.status = 200 := by
    decide +kernel
  obtain ⟨row, hrow, hstored⟩ := List.map_eq_singleton_iff.mp hrows
  have hinserted : Store.Inserted sampleRuntime
      (postEvents {} sampleRuntime .accepting [] mixedRequest).2 ⟨[], by decide⟩
      ⟨[sampleStored], by decide⟩ := by
    rw [hrow]
    exact ⟨1779548401000000, [sampleStored], .cons ⟨_, hstored⟩ .nil, rfl⟩
  exact ingest_visible sampleRuntime {} .accepting [] mixedRequest _ _ hanswer hinserted

/-- A healthy database stores the accepted objects of a prepared request when the
table can hold each of them. -/
theorem postEvents_storable {req : Request} {b : Batch}
    (hauth : settings.requireIngestToken req.authorization = .ok ())
    (hb : prepareBatch settings rt req = .ok b)
    (hstorable : ∀ o ∈ req.objects rt, accepted rt o → Storable rt o) :
    postEvents settings rt (.strict rt) durable req = (answerOf (.ok b.response), b.rows) := by
  obtain ⟨-, hparse, -, -, hrows, -⟩ := (prepareBatch_eq_ok_iff settings rt).mp hb
  rw [objects_of_parseBody hparse] at hrows
  refine postEvents_of_takes settings rt _ durable hauth hb ⟨?_, rfl⟩
  rw [Database.strict_execute_eq_none, hrows]
  intro row hrow
  obtain ⟨o, ho, hacc⟩ := List.mem_filterMap.mp hrow
  exact (acceptedRow_inDomain_iff rt hacc).mpr (hstorable o ho (by rw [accepted, hacc]; rfl))

end TelemetryApi
