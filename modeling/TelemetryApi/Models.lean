import TelemetryApi.Schemas

/-!
# The events table

The `Event` model of `app/models.py`: its two enums, its columns, and the values
a column can hold. `toOrmRow` is `_to_orm_row` of `app/routes/events.py`, which
turns a validated event into the values of a row.
-/

namespace TelemetryApi

inductive EventKind where
  | event
  | error
  | metric
  | crash
  deriving DecidableEq

inductive EventLevel where
  | info
  | warning
  | error
  | fatal
  deriving DecidableEq

namespace EventKind

def all : List EventKind := [event, error, metric, crash]

def value : EventKind → String
  | event => "event"
  | error => "error"
  | metric => "metric"
  | crash => "crash"

/-- `EventKind(s)` -/
def ofValue (s : String) : Except PyExc EventKind :=
  match all.find? (·.value == s) with
  | some kind => .ok kind
  | none => .error (.valueError s!"'{s}' is not a valid EventKind")

theorem value_injective : Function.Injective value := by
  intro a b h
  cases a <;> cases b <;> first | rfl | exact absurd h (by decide)

/-- The labels of the wire are those of the enum. -/
theorem ofValue_label (s : Literal typeLabels) : ∃ kind, ofValue s = .ok kind ∧ kind.value = s := by
  obtain ⟨s, hs⟩ := s
  simp only [List.mem_cons, List.not_mem_nil, or_false] at hs
  rcases hs with rfl | rfl | rfl | rfl
  · exact ⟨event, rfl, rfl⟩
  · exact ⟨error, rfl, rfl⟩
  · exact ⟨metric, rfl, rfl⟩
  · exact ⟨crash, rfl, rfl⟩

end EventKind

namespace EventLevel

def all : List EventLevel := [info, warning, error, fatal]

def value : EventLevel → String
  | info => "info"
  | warning => "warning"
  | error => "error"
  | fatal => "fatal"

/-- `EventLevel(s)` -/
def ofValue (s : String) : Except PyExc EventLevel :=
  match all.find? (·.value == s) with
  | some level => .ok level
  | none => .error (.valueError s!"'{s}' is not a valid EventLevel")

theorem value_injective : Function.Injective value := by
  intro a b h
  cases a <;> cases b <;> first | rfl | exact absurd h (by decide)

theorem ofValue_label (s : Literal levelLabels) :
    ∃ level, ofValue s = .ok level ∧ level.value = s := by
  obtain ⟨s, hs⟩ := s
  simp only [List.mem_cons, List.not_mem_nil, or_false] at hs
  rcases hs with rfl | rfl | rfl | rfl
  · exact ⟨info, rfl, rfl⟩
  · exact ⟨warning, rfl, rfl⟩
  · exact ⟨error, rfl, rfl⟩
  · exact ⟨fatal, rfl, rfl⟩

end EventLevel

/-! ## Rows -/

/-- The row that `_to_orm_row` builds. -/
structure OrmRow where
  vendor : String
  deviceName : String
  deviceVersion : String
  deviceId : String
  sessionId : String
  userId : String
  platform : String
  maxVersion : String
  kind : EventKind
  level : EventLevel
  name : String
  message : Option String
  ts : DateTime
  tsMs : Int
  value : Option Double
  unit : Option String
  props : List (String × String)

/-- The row of a validated event, once its labels are members of the enums. -/
def rowWith (ev : IngestEvent) (kind : EventKind) (level : EventLevel) : OrmRow where
  vendor := ev.vendor
  deviceName := ev.deviceName
  deviceVersion := ev.deviceVersion
  deviceId := ev.deviceId
  sessionId := ev.sessionId
  userId := ev.userId
  platform := ev.platform
  maxVersion := ev.maxVersion
  kind := kind
  level := level
  name := ev.name
  message := ev.message.map (·.val)
  ts := ev.ts
  tsMs := ev.tsMs
  value := ev.value
  unit := ev.unit.map (·.val)
  props := ev.props

/-- `_to_orm_row` -/
def toOrmRow (ev : IngestEvent) : Except PyExc OrmRow := do
  let kind ← EventKind.ofValue ev.type
  let level ← EventLevel.ofValue ev.level
  return rowWith ev kind level

/-- `_to_orm_row` raises on no validated event. -/
theorem toOrmRow_eq_ok (ev : IngestEvent) :
    ∃ kind level, toOrmRow ev = .ok (rowWith ev kind level) ∧
      kind.value = ev.type ∧ level.value = ev.level := by
  obtain ⟨kind, hkind, hkv⟩ := EventKind.ofValue_label ev.type
  obtain ⟨level, hlevel, hlv⟩ := EventLevel.ofValue_label ev.level
  refine ⟨kind, level, ?_, hkv, hlv⟩
  rw [toOrmRow]
  rw [hkind, hlevel]
  rfl

variable (rt : Runtime)

/-- The row of an object that `IngestEvent` accepts on its own. -/
def acceptedRow (o : JsonObject) : Option OrmRow :=
  match modelValidate rt o with
  | .ok ev => (toOrmRow ev).toOption
  | .error _ => none

theorem acceptedRow_eq_some {o : JsonObject} {row : OrmRow} :
    acceptedRow rt o = some row ↔ ∃ ev, modelValidate rt o = .ok ev ∧ toOrmRow ev = .ok row := by
  unfold acceptedRow
  cases modelValidate rt o with
  | error e => simp
  | ok ev => cases hrow : toOrmRow ev <;> simp [hrow, Except.toOption]

/-- The rows of the objects that the schema accepts, in their order. -/
def acceptedRows (objects : List JsonObject) : List OrmRow := objects.filterMap (acceptedRow rt)

/-! ## Columns -/

inductive SqlType where
  | uuid
  | string (length : Nat)
  | text
  | enum (labels : List String)
  | timestamptz
  | bigInteger
  | float
  | jsonb

/-- A value bound to a column of an `INSERT`. -/
inductive SqlValue where
  | null
  | text (s : String)
  | label (s : String)
  | timestamp (t : DateTime)
  | int (n : Int)
  | float (x : Double)
  | json (fields : List (String × String))

/-- `hasDefault` holds where the model or the server fills a missing value in. -/
structure Column where
  name : String
  type : SqlType
  nullable : Bool
  hasDefault : Bool := false

/-- The columns of `Event`, in their order. -/
def Event.columns : List Column :=
  [⟨"id", .uuid, false, true⟩,
    ⟨"received_at", .timestamptz, false, true⟩,
    ⟨"vendor", .string 64, false, false⟩,
    ⟨"device_name", .string 128, false, false⟩,
    ⟨"device_version", .string 64, false, true⟩,
    ⟨"device_id", .string 64, false, false⟩,
    ⟨"session_id", .string 64, false, false⟩,
    ⟨"user_id", .string 256, false, true⟩,
    ⟨"platform", .string 64, false, true⟩,
    ⟨"max_version", .string 128, false, true⟩,
    ⟨"kind", .enum (EventKind.all.map EventKind.value), false, false⟩,
    ⟨"level", .enum (EventLevel.all.map EventLevel.value), false, false⟩,
    ⟨"name", .string 256, false, false⟩,
    ⟨"message", .text, true, false⟩,
    ⟨"ts", .timestamptz, false, false⟩,
    ⟨"ts_ms", .bigInteger, false, false⟩,
    ⟨"value", .float, true, false⟩,
    ⟨"unit", .string 32, true, false⟩,
    ⟨"props", .jsonb, false, true⟩]

/-- The row as the `dict` handed to `INSERT ... VALUES`. -/
def OrmRow.toDict (row : OrmRow) : List (String × SqlValue) :=
  [("vendor", .text row.vendor),
    ("device_name", .text row.deviceName),
    ("device_version", .text row.deviceVersion),
    ("device_id", .text row.deviceId),
    ("session_id", .text row.sessionId),
    ("user_id", .text row.userId),
    ("platform", .text row.platform),
    ("max_version", .text row.maxVersion),
    ("kind", .label row.kind.value),
    ("level", .label row.level.value),
    ("name", .text row.name),
    ("message", (row.message.map .text).getD .null),
    ("ts", .timestamp row.ts),
    ("ts_ms", .int row.tsMs),
    ("value", (row.value.map .float).getD .null),
    ("unit", (row.unit.map .text).getD .null),
    ("props", .json row.props)]

/-- PostgreSQL and asyncpg take the value for the type. -/
def SqlType.Admits : SqlType → SqlValue → Prop
  | .string length, .text s => s.length ≤ length ∧ nul ∉ s.toList
  | .text, .text s => nul ∉ s.toList
  | .enum labels, .label s => s ∈ labels
  | .timestamptz, .timestamp t => (t.toUtc rt).isSome
  | .bigInteger, .int n => -2 ^ 63 ≤ n ∧ n < 2 ^ 63
  | .float, .float _ => True
  | .jsonb, .json fields => ∀ kv ∈ fields, nul ∉ kv.1.toList ∧ nul ∉ kv.2.toList
  | _, _ => False

def Column.Admits (c : Column) : SqlValue → Prop
  | .null => c.nullable
  | v => c.type.Admits rt v

/-- Every column of the table admits its value in the row, and has a default
where the row has none. -/
def OrmRow.InDomain (row : OrmRow) : Prop :=
  ∀ c ∈ Event.columns,
    match row.toDict.lookup c.name with
    | some v => c.Admits rt v
    | none => c.hasDefault

/-- A text of at most `length` code points without U+0000. -/
def TextFits (length : Nat) (s : String) : Prop := s.length ≤ length ∧ nul ∉ s.toList

theorem Column.admits_of_ne_null {c : Column} {v : SqlValue} (hv : v ≠ .null) :
    c.Admits rt v ↔ c.type.Admits rt v := by
  cases v with
  | null => exact absurd rfl hv
  | _ => rfl

/-- A nullable column takes a missing value. -/
theorem Column.admits_getD_null {α : Type} {c : Column} (hnull : c.nullable)
    {bind : α → SqlValue} (hbind : ∀ a, bind a ≠ .null) (value : Option α) :
    c.Admits rt ((value.map bind).getD .null) ↔ ∀ a ∈ value, c.type.Admits rt (bind a) := by
  cases value with
  | none => simp [Column.Admits, hnull]
  | some a => simp [Column.admits_of_ne_null rt (hbind a)]

/-- What the columns ask of a row, field by field; the enums and `value` ask
nothing. -/
theorem OrmRow.inDomain_iff (row : OrmRow) :
    row.InDomain rt ↔
      (TextFits 64 row.vendor ∧ TextFits 128 row.deviceName ∧ TextFits 64 row.deviceVersion ∧
        TextFits 64 row.deviceId ∧ TextFits 64 row.sessionId ∧ TextFits 256 row.userId ∧
        TextFits 64 row.platform ∧ TextFits 128 row.maxVersion ∧ TextFits 256 row.name) ∧
      (∀ m ∈ row.message, nul ∉ m.toList) ∧ (row.ts.toUtc rt).isSome ∧
      (-2 ^ 63 ≤ row.tsMs ∧ row.tsMs < 2 ^ 63) ∧ (∀ u ∈ row.unit, TextFits 32 u) ∧
      ∀ kv ∈ row.props, nul ∉ kv.1.toList ∧ nul ∉ kv.2.toList := by
  have hkind : row.kind.value ∈ EventKind.all.map EventKind.value := by
    cases row.kind <;> decide
  have hlevel : row.level.value ∈ EventLevel.all.map EventLevel.value := by
    cases row.level <;> decide
  rw [OrmRow.InDomain]
  simp only [Event.columns, OrmRow.toDict, List.forall_mem_cons]
  simp [List.lookup_cons, Column.admits_of_ne_null, Column.admits_getD_null, SqlType.Admits,
    TextFits, hkind, hlevel, and_assoc]

end TelemetryApi
