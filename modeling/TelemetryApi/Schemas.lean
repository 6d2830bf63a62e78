import TelemetryApi.Foundations.Validation
import TelemetryApi.Runtime

/-!
# The wire schema

`IngestEvent` of `app/schemas.py` and its validation. An event carries the
bounds of its fields, so that only `model_validate` can make one out of a JSON
object.
-/

namespace TelemetryApi

/-- A text whose length in code points lies within the bounds of its field. -/
abbrev BoundedStr (lo hi : Nat) := {s : String // lo ≤ s.length ∧ s.length ≤ hi}

/-- The default of the texts that have one. -/
def BoundedStr.empty {hi : Nat} : BoundedStr 0 hi := ⟨"", Nat.le_refl 0, Nat.zero_le hi⟩

/-- `Literal[...]` -/
abbrev Literal (labels : List String) := {s : String // s ∈ labels}

abbrev typeLabels : List String := ["event", "error", "metric", "crash"]

abbrev levelLabels : List String := ["info", "warning", "error", "fatal"]

structure IngestEvent where
  vendor : BoundedStr 1 64
  deviceName : BoundedStr 0 128
  deviceVersion : BoundedStr 0 64
  deviceId : BoundedStr 1 64
  sessionId : BoundedStr 1 64
  userId : BoundedStr 0 256
  platform : BoundedStr 0 64
  maxVersion : BoundedStr 0 128
  type : Literal typeLabels
  level : Literal levelLabels
  name : BoundedStr 1 256
  message : Option (BoundedStr 0 10000)
  ts : DateTime
  tsMs : Int
  value : Option Double
  unit : Option (BoundedStr 0 32)
  props : List (String × String)

abbrev FieldResult := Validated LineError PyExc

section Fields

/-! ## Field types -/

/-- `str = Field(min_length=lo, max_length=hi)` -/
def strField (lo hi : Nat) (loc : String) : Json → FieldResult (BoundedStr lo hi)
  | .str s =>
    if h : lo ≤ s.length ∧ s.length ≤ hi then .ok ⟨s, h⟩
    else if hi < s.length then .invalid [⟨.stringTooLong hi, loc, .str s⟩]
    else .invalid [⟨.stringTooShort lo, loc, .str s⟩]
  | v => .invalid [⟨.stringType, loc, v⟩]

/-- `Literal[labels]` -/
def literalField (labels : List String) (loc : String) : Json → FieldResult (Literal labels)
  | .str s =>
    if h : s ∈ labels then .ok ⟨s, h⟩ else .invalid [⟨.literalError labels, loc, .str s⟩]
  | v => .invalid [⟨.literalError labels, loc, v⟩]

/-- A number or a timestamp. -/
def parsedField {α : Type} (parse : Json → Except String α) (loc : String) (v : Json) :
    FieldResult α :=
  match parse v with
  | .ok a => .ok a
  | .error code => .invalid [⟨.parsing code, loc, v⟩]

/-- `T | None` -/
def optionalField {α : Type} (field : String → Json → FieldResult α) (loc : String) :
    Json → FieldResult (Option α)
  | .null => .ok none
  | v => (field loc v).map some

/-- A field without a default. -/
def required {α : Type} (o : JsonObject) (key : String) (field : String → Json → FieldResult α) :
    FieldResult α :=
  match o.get key with
  | some v => field key v
  | none => .invalid [⟨.missing, key, .obj o⟩]

/-- A field with a default, which is not validated. -/
def defaulted {α : Type} (o : JsonObject) (key : String) (default : α)
    (field : String → Json → FieldResult α) : FieldResult α :=
  match o.get key with
  | some v => field key v
  | none => .ok default

/-- A validator in mode "before": a `ValueError` becomes an error of the field,
every other exception leaves `model_validate`. -/
def beforeValidator {α : Type} (run : Json → Except PyExc α) (loc : String) (v : Json) :
    FieldResult α :=
  match run v with
  | .ok a => .ok a
  | .error (.valueError message) => .invalid [⟨.valueError message, loc, v⟩]
  -- pydantic passes a `TypeError` on
  | .error e => .aborted e

/-! ### No field but a validated one breaks off -/

theorem settles_strField (lo hi : Nat) (loc : String) (v : Json) :
    (strField lo hi loc v).Settles := by
  simp only [strField]
  split
  · split_ifs <;> simp
  · simp

theorem settles_literalField (labels : List String) (loc : String) (v : Json) :
    (literalField labels loc v).Settles := by
  simp only [literalField]
  split
  · split_ifs <;> simp
  · simp

theorem settles_parsedField {α : Type} (parse : Json → Except String α) (loc : String) (v : Json) :
    (parsedField parse loc v).Settles := by
  rw [parsedField]
  split <;> simp

theorem settles_optionalField {α : Type} {field : String → Json → FieldResult α}
    (h : ∀ loc v, (field loc v).Settles) (loc : String) (v : Json) :
    (optionalField field loc v).Settles := by
  simp only [optionalField]
  split
  · simp
  · exact (h loc _).map some

theorem settles_required {α : Type} {field : String → Json → FieldResult α}
    (h : ∀ loc v, (field loc v).Settles) (o : JsonObject) (key : String) :
    (required o key field).Settles := by
  rw [required]
  split
  · exact h key _
  · simp

theorem settles_defaulted {α : Type} {field : String → Json → FieldResult α}
    (h : ∀ loc v, (field loc v).Settles) (o : JsonObject) (key : String) (default : α) :
    (defaulted o key default field).Settles := by
  rw [defaulted]
  split
  · exact h key _
  · simp

end Fields

variable (rt : Runtime)

/-- `coerce_props`: values are stringified, `null` is the empty bag. -/
def coerceProps : Json → Except PyExc (List (String × String))
  | .null => .ok []
  | .obj fields => .ok (fields.map fun kv => (kv.1, pyStr rt.toCPython kv.2))
  | _ => .error (.typeError "props must be an object")

/-- The fields of `IngestEvent` in their order, without `props`. -/
def validateEnvelope (o : JsonObject) :
    FieldResult (List (String × String) → IngestEvent) :=
  ((((((((((((((((required o "vendor" (strField 1 64)).map IngestEvent.mk).app
    (defaulted o "device_name" .empty (strField 0 128))).app
    (defaulted o "device_version" .empty (strField 0 64))).app
    (required o "device_id" (strField 1 64))).app
    (required o "session_id" (strField 1 64))).app
    (defaulted o "user_id" .empty (strField 0 256))).app
    (defaulted o "platform" .empty (strField 0 64))).app
    (defaulted o "max_version" .empty (strField 0 128))).app
    (required o "type" (literalField typeLabels))).app
    (defaulted o "level" ⟨"info", by decide⟩ (literalField levelLabels))).app
    (required o "name" (strField 1 256))).app
    (defaulted o "message" none (optionalField (strField 0 10000)))).app
    (required o "ts" (parsedField rt.parseDatetime))).app
    (required o "ts_ms" (parsedField rt.parseInt))).app
    (defaulted o "value" none (optionalField (parsedField rt.parseFloat)))).app
    (defaulted o "unit" none (optionalField (strField 0 32)))

def validateProps (o : JsonObject) : FieldResult (List (String × String)) :=
  defaulted o "props" [] (beforeValidator (coerceProps rt))

/-- What `model_validate` raises on an outcome of its fields. -/
def raiseErrors {α : Type} : FieldResult α → Except PyExc α
  | .ok a => .ok a
  | .invalid errors => .error (.validation errors)
  | .aborted e => .error e

/-- `IngestEvent.model_validate` -/
def modelValidate (o : JsonObject) : Except PyExc IngestEvent :=
  raiseErrors ((validateEnvelope rt o).app (validateProps rt o))

/-- `props` is present and neither `null` nor an object, which `coerce_props`
answers with a `TypeError`. -/
def BadProps (o : JsonObject) : Prop :=
  match o.get "props" with
  | none | some .null | some (.obj _) => False
  | some _ => True

instance (o : JsonObject) : Decidable (BadProps o) :=
  match h : o.get "props" with
  | none | some .null | some (.obj _) => .isFalse (by simp [BadProps, h])
  | some (.bool _) | some (.int _) | some (.float _) | some (.str _) | some (.arr _) =>
    .isTrue (by simp [BadProps, h])

/-- No field but `props` breaks the validation off. -/
theorem settles_validateEnvelope (o : JsonObject) : (validateEnvelope rt o).Settles := by
  have req : ∀ key lo hi, (required o key (strField lo hi)).Settles := fun key lo hi =>
    settles_required (settles_strField lo hi) o key
  have opt : ∀ key hi, (defaulted o key .empty (strField 0 hi)).Settles := fun key hi =>
    settles_defaulted (settles_strField 0 hi) o key .empty
  -- the fields in their order, in three runs
  have source := ((((((((req "vendor" 1 64).map IngestEvent.mk).app (opt "device_name" 128)).app
    (opt "device_version" 64)).app (req "device_id" 1 64)).app (req "session_id" 1 64)).app
    (opt "user_id" 256)).app (opt "platform" 64)).app (opt "max_version" 128)
  have event := (((source.app (settles_required (settles_literalField typeLabels) o "type")).app
    (settles_defaulted (settles_literalField levelLabels) o "level" ⟨"info", by decide⟩)).app
    (req "name" 1 256)).app
    (settles_defaulted (settles_optionalField (settles_strField 0 10000)) o "message" none)
  exact (((event.app (settles_required (settles_parsedField rt.parseDatetime) o "ts")).app
    (settles_required (settles_parsedField rt.parseInt) o "ts_ms")).app
    (settles_defaulted (settles_optionalField (settles_parsedField rt.parseFloat)) o "value"
      none)).app
    (settles_defaulted (settles_optionalField (settles_strField 0 32)) o "unit" none)

theorem validateProps_eq_aborted {o : JsonObject} {e : PyExc} :
    validateProps rt o = .aborted e ↔
      BadProps o ∧ e = .typeError "props must be an object" := by
  rw [validateProps, defaulted, BadProps]
  cases o.get "props" with
  | none => simp
  | some v => cases v <;> simp [beforeValidator, coerceProps, eq_comm]

/-- Malformed `props` leave `model_validate` as a `TypeError`, whatever the
other fields hold. -/
theorem modelValidate_of_badProps {o : JsonObject} (h : BadProps o) :
    modelValidate rt o = .error (.typeError "props must be an object") := by
  have hprops : validateProps rt o = .aborted (.typeError "props must be an object") :=
    (validateProps_eq_aborted rt).mpr ⟨h, rfl⟩
  have habort := ((settles_validateEnvelope rt o).app_eq_aborted).mpr hprops
  rw [modelValidate, habort, raiseErrors]

theorem raiseErrors_of_settles {α : Type} {v : FieldResult α} (h : v.Settles) :
    (∃ a, raiseErrors v = .ok a) ∨ ∃ errors, raiseErrors v = .error (.validation errors) := by
  cases v with
  | ok a => exact Or.inl ⟨a, rfl⟩
  | invalid errors => exact Or.inr ⟨errors, rfl⟩
  | aborted e => exact absurd h (Validated.not_settles_aborted e)

/-- Every other object is accepted or refused with a `ValidationError`. -/
theorem modelValidate_of_not_badProps {o : JsonObject} (h : ¬ BadProps o) :
    (∃ ev, modelValidate rt o = .ok ev) ∨
      ∃ errors, modelValidate rt o = .error (.validation errors) := by
  have hprops : (validateProps rt o).Settles := by
    intro e he
    exact h ((validateProps_eq_aborted rt).mp he).1
  exact raiseErrors_of_settles ((settles_validateEnvelope rt o).app hprops)

/-! ## Reading the fields back -/

/-- Every field of the event, as it was read from the object. -/
structure IngestEvent.ReadFrom (o : JsonObject) (ev : IngestEvent) : Prop where
  vendor : required o "vendor" (strField 1 64) = .ok ev.vendor
  deviceName : defaulted o "device_name" .empty (strField 0 128) = .ok ev.deviceName
  deviceVersion : defaulted o "device_version" .empty (strField 0 64) = .ok ev.deviceVersion
  deviceId : required o "device_id" (strField 1 64) = .ok ev.deviceId
  sessionId : required o "session_id" (strField 1 64) = .ok ev.sessionId
  userId : defaulted o "user_id" .empty (strField 0 256) = .ok ev.userId
  platform : defaulted o "platform" .empty (strField 0 64) = .ok ev.platform
  maxVersion : defaulted o "max_version" .empty (strField 0 128) = .ok ev.maxVersion
  type : required o "type" (literalField typeLabels) = .ok ev.type
  level : defaulted o "level" ⟨"info", by decide⟩ (literalField levelLabels) = .ok ev.level
  name : required o "name" (strField 1 256) = .ok ev.name
  message : defaulted o "message" none (optionalField (strField 0 10000)) = .ok ev.message
  ts : required o "ts" (parsedField rt.parseDatetime) = .ok ev.ts
  tsMs : required o "ts_ms" (parsedField rt.parseInt) = .ok ev.tsMs
  value : defaulted o "value" none (optionalField (parsedField rt.parseFloat)) = .ok ev.value
  unit : defaulted o "unit" none (optionalField (strField 0 32)) = .ok ev.unit
  props : validateProps rt o = .ok ev.props

theorem raiseErrors_eq_ok {α : Type} {v : FieldResult α} {a : α} :
    raiseErrors v = .ok a ↔ v = .ok a := by
  cases v <;> simp [raiseErrors]

theorem readFrom_of_modelValidate {o : JsonObject} {ev : IngestEvent}
    (h : modelValidate rt o = .ok ev) : ev.ReadFrom rt o := by
  obtain ⟨_, props, beforeProps, hProps, rfl⟩ := Validated.app_eq_ok.mp (raiseErrors_eq_ok.mp h)
  obtain ⟨_, unit, beforeUnit, hUnit, rfl⟩ := Validated.app_eq_ok.mp beforeProps
  obtain ⟨_, value, beforeValue, hValue, rfl⟩ := Validated.app_eq_ok.mp beforeUnit
  obtain ⟨_, tsMs, beforeTsMs, hTsMs, rfl⟩ := Validated.app_eq_ok.mp beforeValue
  obtain ⟨_, ts, beforeTs, hTs, rfl⟩ := Validated.app_eq_ok.mp beforeTsMs
  obtain ⟨_, message, beforeMessage, hMessage, rfl⟩ := Validated.app_eq_ok.mp beforeTs
  obtain ⟨_, name, beforeName, hName, rfl⟩ := Validated.app_eq_ok.mp beforeMessage
  obtain ⟨_, level, beforeLevel, hLevel, rfl⟩ := Validated.app_eq_ok.mp beforeName
  obtain ⟨_, type, beforeType, hType, rfl⟩ := Validated.app_eq_ok.mp beforeLevel
  obtain ⟨_, maxVersion, beforeMaxVersion, hMaxVersion, rfl⟩ := Validated.app_eq_ok.mp beforeType
  obtain ⟨_, platform, beforePlatform, hPlatform, rfl⟩ := Validated.app_eq_ok.mp beforeMaxVersion
  obtain ⟨_, userId, beforeUserId, hUserId, rfl⟩ := Validated.app_eq_ok.mp beforePlatform
  obtain ⟨_, sessionId, beforeSessionId, hSessionId, rfl⟩ := Validated.app_eq_ok.mp beforeUserId
  obtain ⟨_, deviceId, beforeDeviceId, hDeviceId, rfl⟩ := Validated.app_eq_ok.mp beforeSessionId
  obtain ⟨_, deviceVersion, beforeDeviceVersion, hDeviceVersion, rfl⟩ :=
    Validated.app_eq_ok.mp beforeDeviceId
  obtain ⟨_, deviceName, beforeDeviceName, hDeviceName, rfl⟩ :=
    Validated.app_eq_ok.mp beforeDeviceVersion
  obtain ⟨vendor, hVendor, rfl⟩ := Validated.map_eq_ok.mp beforeDeviceName
  exact ⟨hVendor, hDeviceName, hDeviceVersion, hDeviceId, hSessionId, hUserId, hPlatform,
    hMaxVersion, hType, hLevel, hName, hMessage, hTs, hTsMs, hValue, hUnit, hProps⟩

end TelemetryApi
