import TelemetryApi.Routes.Health
import TelemetryApi.Routes.Search

/-!
# What the list binds

The parameters of `GET /v1/events` on their way into its two statements. FastAPI
validates them one by one; asyncpg and PostgreSQL take each bound value only if its
SQL type has it, and no more than so many in one statement. `kind` and `level` can be
repeated in the query string, and bind a value each time.
-/

namespace TelemetryApi

/-- A timestamp with an offset. -/
abbrev Aware := {t : DateTime // t.offset.isSome}

/-- The parameters of `list_events` as FastAPI has validated them. -/
structure ListQuery where
  vendor : Option String := none
  deviceName : Option String := none
  deviceVersion : Option String := none
  deviceId : Option String := none
  sessionId : Option String := none
  kind : List EventKind := []
  level : List EventLevel := []
  since : Option Aware := none
  untilTs : Option Aware := none
  q : Option String := none
  order : SortOrder := .desc
  limit : Bounded 1 500 := ⟨50, by decide⟩
  offset : Nat := 0

/-- A value bound to a parameter of a statement. -/
inductive BoundValue where
  | text (s : String)
  | kind (k : EventKind)
  | level (l : EventLevel)
  | timestamp (t : Aware)
  | bigint (n : Int)

variable (rt : Runtime)

namespace BoundValue

/-- The SQL type of the parameter has the value. -/
def Representable : BoundValue → Prop
  | .text s => nul ∉ s.toList
  | .kind _ | .level _ => True
  | .timestamp t => (t.val.toUtc rt).isSome
  | .bigint n => -2 ^ 63 ≤ n ∧ n < 2 ^ 63

instance : DecidablePred (Representable rt)
  | .text s => inferInstanceAs (Decidable (nul ∉ s.toList))
  | .kind _ => .isTrue trivial
  | .level _ => .isTrue trivial
  | .timestamp t => inferInstanceAs (Decidable ((t.val.toUtc rt).isSome = true))
  | .bigint n => inferInstanceAs (Decidable (-2 ^ 63 ≤ n ∧ n < 2 ^ 63))

/-- Why the value is refused. -/
def problem : BoundValue → String
  | .text _ => "invalid byte sequence for encoding \"UTF8\": 0x00"
  | .timestamp _ => "invalid input for query argument: date value out of range"
  | .bigint _ => "invalid input for query argument: value out of int64 range"
  | .kind _ | .level _ => ""

end BoundValue

/-- `session.execute` of a query, with the values it binds and what it returns. -/
def executeQuery {α : Type} (binds : List BoundValue) (result : α) : Except PyExc α :=
  if maxBinds < binds.length then .error (.database tooManyBinds)
  else match binds.find? fun v => ¬ v.Representable rt with
    | some v => .error (.database v.problem)
    | none => .ok result

theorem executeQuery_eq_ok_iff {α : Type} {binds : List BoundValue} {result a : α} :
    executeQuery rt binds result = .ok a ↔
      (binds.length ≤ maxBinds ∧ ∀ v ∈ binds, v.Representable rt) ∧ a = result := by
  rw [executeQuery]
  split_ifs with hmany
  · exact iff_of_false (fun h => by cases h) fun h => absurd h.1.1 (Nat.not_le_of_lt hmany)
  · cases hfind : binds.find? fun v => ¬ v.Representable rt with
    | some v =>
      have hrefused : ¬ v.Representable rt := by simpa using List.find?_some hfind
      have hmem := List.mem_of_find?_eq_some hfind
      simp only [reduceCtorEq, false_iff]
      exact fun h => hrefused (h.1.2 v hmem)
    | none =>
      have hall : ∀ v ∈ binds, v.Representable rt := by simpa using hfind
      simp only [Except.ok.injEq]
      exact ⟨fun h => ⟨⟨Nat.le_of_not_lt hmany, hall⟩, h.symm⟩, fun h => h.2.symm⟩

/-- A text filter, which is left out when it is absent or empty. -/
def bindText : Option String → List BoundValue
  | none => []
  | some v => if v = "" then [] else [.text v]

/-- The pattern of `q`, for the name and for the message. -/
def bindSearch : Option String → List BoundValue
  | none => []
  | some q => if q = "" then [] else [.text ("%" ++ q ++ "%"), .text ("%" ++ q ++ "%")]

namespace ListQuery

variable (query : ListQuery)

/-- The parameters of the `WHERE` clauses. -/
def countBinds : List BoundValue :=
  bindText query.vendor ++ bindText query.deviceName ++ bindText query.deviceVersion ++
    bindText query.deviceId ++ bindText query.sessionId ++ query.kind.map .kind ++
    query.level.map .level ++ query.since.toList.map .timestamp ++
    query.untilTs.toList.map .timestamp ++ bindSearch query.q

/-- The statement for the page has `LIMIT` and `OFFSET` besides. -/
def rowsBinds : List BoundValue :=
  query.countBinds ++ [.bigint query.limit.val, .bigint query.offset]

/-- The parameters with their timestamps as instants. -/
def toParams : ListParams where
  vendor := query.vendor
  deviceName := query.deviceName
  deviceVersion := query.deviceVersion
  deviceId := query.deviceId
  sessionId := query.sessionId
  kind := query.kind
  level := query.level
  since := query.since.bind fun t => t.val.toUtc rt
  untilTs := query.untilTs.bind fun t => t.val.toUtc rt
  q := query.q
  order := query.order
  limit := query.limit
  offset := query.offset

/-- `GET /v1/events`: the count, then the page. -/
def getEvents (store : Store) (scan : Scan Event) : Except PyExc EventListResponse := do
  let p := query.toParams rt
  let total ← executeQuery rt query.countBinds (store.select p).length
  let rows ← executeQuery rt query.rowsBinds
    (page query.limit query.offset (orderBy p.order.key scan (store.select p)))
  return { items := rows.map rowToOut, total := total, limit := query.limit, offset := query.offset }

/-- The values are no more than a statement can bind, no text has U+0000, the offset is a
64-bit integer, and the bounds have a reading in UTC. -/
structure Fits : Prop where
  binds : query.rowsBinds.length ≤ maxBinds
  texts : (query.toParams rt).Bindable
  offset : query.offset < 2 ^ 63
  since : ∀ t ∈ query.since, (t.val.toUtc rt).isSome
  untilTs : ∀ t ∈ query.untilTs, (t.val.toUtc rt).isSome

end ListQuery

theorem representable_bindText {parameter : Option String} :
    (∀ v ∈ bindText parameter, v.Representable rt) ↔ ∀ s ∈ parameter, nul ∉ s.toList := by
  cases parameter with
  | none => simp [bindText]
  | some s =>
    rw [bindText]
    split_ifs with hs
    · subst hs
      simp
    · simp [BoundValue.Representable]

theorem representable_bindSearch {parameter : Option String} :
    (∀ v ∈ bindSearch parameter, v.Representable rt) ↔ ∀ s ∈ parameter, nul ∉ s.toList := by
  cases parameter with
  | none => simp [bindSearch]
  | some s =>
    have hpercent : nul ≠ '%' := by decide
    rw [bindSearch]
    split_ifs with hs
    · subst hs
      simp
    · simp [BoundValue.Representable, hpercent]

namespace ListQuery

variable {rt} {query : ListQuery}

theorem bindable_toParams_iff :
    (query.toParams rt).Bindable ↔ ∀ parameter ∈ [query.vendor, query.deviceName,
      query.deviceVersion, query.deviceId, query.sessionId, query.q],
      ∀ s ∈ parameter, nul ∉ s.toList := by
  simp only [ListParams.Bindable, ListParams.texts, toParams, List.mem_filterMap, id_eq]
  constructor
  · intro h parameter hparameter s hs
    exact h s ⟨parameter, hparameter, hs⟩
  · rintro h s ⟨parameter, hparameter, hs⟩
    exact h parameter hparameter s hs

/-- The values of the statement for the count, which are among those of the other. -/
theorem representable_countBinds_iff :
    (∀ v ∈ query.countBinds, v.Representable rt) ↔
      (query.toParams rt).Bindable ∧ (∀ t ∈ query.since, (t.val.toUtc rt).isSome) ∧
        ∀ t ∈ query.untilTs, (t.val.toUtc rt).isSome := by
  have hkinds : ∀ v ∈ query.kind.map BoundValue.kind, v.Representable rt := by
    simp [BoundValue.Representable]
  have hlevels : ∀ v ∈ query.level.map BoundValue.level, v.Representable rt := by
    simp [BoundValue.Representable]
  have htimes : ∀ bound : Option Aware,
      (∀ v ∈ bound.toList.map BoundValue.timestamp, v.Representable rt) ↔
        ∀ t ∈ bound, (t.val.toUtc rt).isSome := by
    intro bound
    cases bound <;> simp [BoundValue.Representable]
  rw [bindable_toParams_iff]
  simp only [countBinds, List.forall_mem_append, representable_bindText, representable_bindSearch,
    htimes, List.forall_mem_cons, List.not_mem_nil, false_implies, implies_true, and_true]
  tauto

theorem length_countBinds_le : query.countBinds.length ≤ query.rowsBinds.length := by
  rw [rowsBinds, List.length_append]
  exact Nat.le_add_right _ _

theorem fits_iff : query.Fits rt ↔
    query.rowsBinds.length ≤ maxBinds ∧ ∀ v ∈ query.rowsBinds, v.Representable rt := by
  have hlimit : (query.limit.val : Int) < 2 ^ 63 := by
    have h := query.limit.property.2
    omega
  rw [rowsBinds, List.forall_mem_append, representable_countBinds_iff, ← rowsBinds]
  simp only [List.forall_mem_cons, List.not_mem_nil, false_implies, implies_true, and_true,
    BoundValue.Representable]
  constructor
  · rintro ⟨hbinds, htexts, hoffset, hsince, huntil⟩
    exact ⟨hbinds, ⟨htexts, hsince, huntil⟩, ⟨by omega, hlimit⟩, by omega,
      by exact_mod_cast hoffset⟩
  · rintro ⟨hbinds, ⟨htexts, hsince, huntil⟩, -, -, hoffset⟩
    exact ⟨hbinds, htexts, by exact_mod_cast hoffset, hsince, huntil⟩

/-- Values that fit give the list of the parameters. -/
theorem getEvents_of_fits (h : query.Fits rt) (store : Store) (scan : Scan Event) :
    query.getEvents rt store scan = .ok (listEvents store scan (query.toParams rt)) := by
  obtain ⟨hbinds, hrows⟩ := fits_iff.mp h
  have hcount : ∀ v ∈ query.countBinds, v.Representable rt :=
    fun v hv => hrows v (List.mem_append_left _ hv)
  rw [ListQuery.getEvents,
    (executeQuery_eq_ok_iff rt).mpr ⟨⟨length_countBinds_le.trans hbinds, hcount⟩, rfl⟩]
  simp only [bind, Except.bind]
  rw [(executeQuery_eq_ok_iff rt).mpr ⟨⟨hbinds, hrows⟩, rfl⟩]
  rfl

theorem executeQuery_eq_error {α : Type} {binds : List BoundValue} {result : α} {e : PyExc}
    (h : executeQuery rt binds result = .error e) : ∃ message, e = .database message := by
  rw [executeQuery] at h
  split_ifs at h
  · exact ⟨_, (Except.error.inj h).symm⟩
  · split at h
    · exact ⟨_, (Except.error.inj h).symm⟩
    · cases h

/-- An answer of the route has both statements behind it, and every other outcome is
an exception of the driver. -/
theorem status_getEvents_iff (store : Store) (scan : Scan Event) :
    statusOf (query.getEvents rt store scan) = 200 ↔ query.Fits rt := by
  constructor
  · intro hstatus
    rw [fits_iff]
    rw [ListQuery.getEvents] at hstatus
    cases hcount : executeQuery rt query.countBinds (store.select (query.toParams rt)).length with
    | error e =>
      obtain ⟨message, rfl⟩ := executeQuery_eq_error hcount
      simp [hcount, bind, Except.bind, statusOf] at hstatus
    | ok total =>
      cases hrows : executeQuery rt query.rowsBinds (page query.limit query.offset
          (orderBy (query.toParams rt).order.key scan (store.select (query.toParams rt)))) with
      | error e =>
        obtain ⟨message, rfl⟩ := executeQuery_eq_error hrows
        simp [hcount, hrows, bind, Except.bind, statusOf] at hstatus
      | ok rows => exact ((executeQuery_eq_ok_iff rt).mp hrows).1
  · intro hfits
    rw [getEvents_of_fits hfits]
    rfl

end ListQuery

/-- The route answers with 200, and its statements bind representable values only,
exactly when the parameters fit. -/
theorem listQuery_answered_iff (query : ListQuery) (store : Store) (scan : Scan Event) :
    statusOf (query.getEvents rt store scan) = 200 ∧
        (∀ v ∈ query.countBinds ++ query.rowsBinds, v.Representable rt) ↔ query.Fits rt := by
  rw [ListQuery.status_getEvents_iff, List.forall_mem_append, ListQuery.representable_countBinds_iff]
  constructor
  · exact fun h => h.1
  · exact fun h => ⟨h, ⟨h.texts, h.since, h.untilTs⟩, (ListQuery.fits_iff.mp h).2⟩

/-- The first minute of the year 1 in a zone fourteen hours ahead. -/
def firstMinute : Aware := ⟨⟨minInstant, some 50400, by decide, by decide⟩, rfl⟩

theorem status_getEvents_of_many {rt : Runtime} {query : ListQuery}
    (h : maxBinds < query.countBinds.length) (store : Store) (scan : Scan Event) :
    statusOf (query.getEvents rt store scan) = 500 := by
  rw [ListQuery.getEvents, executeQuery, if_pos h]
  rfl

/-- An offset of 2^63, a text of U+0000, an instant before the year 1 and a kind that is
repeated more often than a statement can bind it each end in a 500. -/
theorem listQuery_refused :
    statusOf ((ListQuery.getEvents sampleRuntime { offset := 2 ^ 63 }) ⟨[], by decide⟩ .id) = 500 ∧
      statusOf ((ListQuery.getEvents sampleRuntime { vendor := some (String.ofList [nul]) })
        ⟨[], by decide⟩ .id) = 500 ∧
      statusOf ((ListQuery.getEvents sampleRuntime { since := some firstMinute })
        ⟨[], by decide⟩ .id) = 500 ∧
      statusOf ((ListQuery.getEvents sampleRuntime { kind := List.replicate 32768 .event })
        ⟨[], by decide⟩ .id) = 500 := by
  refine ⟨by decide +kernel, by decide +kernel, by decide +kernel, ?_⟩
  have hlength : ∀ n, (ListQuery.countBinds { kind := List.replicate n .event }).length = n := by
    intro n
    simp [ListQuery.countBinds, bindText, bindSearch]
  apply status_getEvents_of_many
  rw [hlength]
  decide

theorem exists_text_of_mem_bindText {parameter : Option String} {v : BoundValue}
    (h : v ∈ bindText parameter) : ∃ s, v = .text s := by
  cases parameter with
  | none => cases h
  | some s =>
    rw [bindText] at h
    split_ifs at h
    · cases h
    · exact ⟨s, List.mem_singleton.mp h⟩

theorem exists_text_of_mem_bindSearch {parameter : Option String} {v : BoundValue}
    (h : v ∈ bindSearch parameter) : ∃ s, v = .text s := by
  cases parameter with
  | none => cases h
  | some s =>
    rw [bindSearch] at h
    split_ifs at h
    · cases h
    · simp only [List.mem_cons, List.not_mem_nil, or_false, or_self] at h
      exact ⟨_, h⟩

namespace ListQuery

variable {rt} {query : ListQuery}

/-- Of the values of the `WHERE` clauses, only texts and timestamps can be refused. -/
theorem text_or_timestamp_of_mem {v : BoundValue} (h : v ∈ query.countBinds)
    (hrefused : ¬ v.Representable rt) :
    (∃ s, v = .text s) ∨ ∃ t, (t ∈ query.since ∨ t ∈ query.untilTs) ∧ v = .timestamp t := by
  simp only [countBinds, List.mem_append, List.mem_map, Option.mem_toList] at h
  rcases h with ((((((((h | h) | h) | h) | h) | h) | h) | h) | h) | h
  · exact Or.inl (exists_text_of_mem_bindText h)
  · exact Or.inl (exists_text_of_mem_bindText h)
  · exact Or.inl (exists_text_of_mem_bindText h)
  · exact Or.inl (exists_text_of_mem_bindText h)
  · exact Or.inl (exists_text_of_mem_bindText h)
  · obtain ⟨k, -, rfl⟩ := h
    exact absurd trivial hrefused
  · obtain ⟨l, -, rfl⟩ := h
    exact absurd trivial hrefused
  · obtain ⟨t, ht, rfl⟩ := h
    exact Or.inr ⟨t, Or.inl ht, rfl⟩
  · obtain ⟨t, ht, rfl⟩ := h
    exact Or.inr ⟨t, Or.inr ht, rfl⟩
  · exact Or.inl (exists_text_of_mem_bindSearch h)

/-- Next to an offset, timestamps and a number of values that fit, the texts decide, and a
refused one ends the route at the count. -/
theorem getEvents_eq_getEvents (hbinds : query.rowsBinds.length ≤ maxBinds)
    (hoffset : query.offset < 2 ^ 63)
    (hsince : ∀ t ∈ query.since, (t.val.toUtc rt).isSome)
    (huntil : ∀ t ∈ query.untilTs, (t.val.toUtc rt).isSome) (store : Store) (scan : Scan Event) :
    query.getEvents rt store scan = TelemetryApi.getEvents store scan (query.toParams rt) := by
  rw [TelemetryApi.getEvents]
  split_ifs with htexts
  · exact getEvents_of_fits ⟨hbinds, htexts, hoffset, hsince, huntil⟩ store scan
  · have hnot : ¬ ∀ v ∈ query.countBinds, v.Representable rt :=
      fun h => htexts (representable_countBinds_iff.mp h).1
    rw [ListQuery.getEvents, executeQuery,
      if_neg (Nat.not_lt_of_le (length_countBinds_le.trans hbinds))]
    cases hfind : query.countBinds.find? fun v => ¬ v.Representable rt with
    | none => exact absurd (by simpa using hfind) hnot
    | some v =>
      have hrefused : ¬ v.Representable rt := by simpa using List.find?_some hfind
      rcases text_or_timestamp_of_mem (List.mem_of_find?_eq_some hfind) hrefused with
        ⟨s, rfl⟩ | ⟨t, ht, rfl⟩
      · rfl
      · exact absurd (ht.elim (hsince t) (huntil t)) hrefused

end ListQuery

end TelemetryApi
