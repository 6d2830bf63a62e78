import TelemetryApi.Foundations.Utf8
import TelemetryApi.Json

/-!
# What the application takes from Python and its packages

Exceptions, timestamps, and the functions of CPython, orjson and pydantic whose
code is not part of the repository. `Runtime` bundles them; every function of
the model that depends on one takes a `Runtime`.
-/

namespace TelemetryApi

/-- `fastapi.HTTPException` -/
structure HttpError where
  statusCode : Nat
  detail : String
  headers : List (String × String) := []

/-- Why pydantic refuses a field; `parsing` carries the code of an unreadable
number or timestamp. -/
inductive ErrorType where
  | missing
  | stringType
  | stringTooShort (minLength : Nat)
  | stringTooLong (maxLength : Nat)
  | literalError (expected : List String)
  | parsing (code : String)
  | valueError (message : String)

/-- One entry of `ValidationError.errors()`. -/
structure LineError where
  type : ErrorType
  loc : String
  input : Json

inductive PyExc where
  | http (e : HttpError)
  | validation (errors : List LineError)
  | typeError (message : String)
  | valueError (message : String)
  | database (message : String)

/-- 0001-01-01T00:00:00, in microseconds since 1970. -/
def minInstant : Int := -62135596800000000

/-- 9999-12-31T23:59:59.999999, in microseconds since 1970. -/
def maxInstant : Int := 253402300799999999

/-- `datetime`: the wall-clock reading in microseconds since 1970 and, for an
aware value, the UTC offset in seconds. -/
structure DateTime where
  wall : Int
  offset : Option Int
  wall_range : minInstant ≤ wall ∧ wall ≤ maxInstant
  offset_range : ∀ o ∈ offset, -86400 < o ∧ o < 86400

/-- `b"null"` -/
def nullText : Bytes := [110, 117, 108, 108]

structure Runtime extends CPython where
  /-- `orjson.loads`, with the text of its `JSONDecodeError`. -/
  loads : Bytes → Except String Json
  loads_null : loads nullText = .ok .null
  loads_empty : ∃ exc, loads [] = .error exc
  /-- Whitespace around a JSON text is insignificant. -/
  loads_strip : ∀ t v, loads t = .ok v → loads (Bytes.strip t) = .ok v
  /-- pydantic's `int`, `float` and `datetime`, with the code of the error. -/
  parseInt : Json → Except String Int
  parseFloat : Json → Except String Double
  parseDatetime : Json → Except String DateTime
  /-- `str(exc.errors(include_url=False))` -/
  errorsText : List LineError → String
  /-- `astimezone(utc)` of a naive wall-clock reading in the zone of the process. -/
  localToUtc : Int → Option Int

namespace Runtime

variable (rt : Runtime)

/-- A text of nothing but whitespace is no JSON. -/
theorem loads_blank {t : Bytes} (h : Bytes.strip t = []) : ∃ exc, rt.loads t = .error exc := by
  cases ht : rt.loads t with
  | error exc => exact ⟨exc, rfl⟩
  | ok v =>
    obtain ⟨exc, hempty⟩ := rt.loads_empty
    rw [← h, rt.loads_strip t v ht] at hempty
    cases hempty

/-- A runtime in the zone UTC that can read the given JSON texts, numbers and
the one timestamp. -/
def ofTexts (texts : List (Bytes × Json)) : Runtime where
  floatRepr _ := "0.0"
  floatRepr_nul _ := by decide
  isPrintable _ := true
  loads t :=
    let s := Bytes.strip t
    if s = [] then .error "Input is a zero-length, empty document: line 1 column 1 (char 0)"
    else if s = nullText then .ok .null
    else match texts.find? (fun entry => entry.1 == s) with
      | some entry => .ok entry.2
      | none => .error "unexpected character: line 1 column 1 (char 0)"
  loads_null := rfl
  loads_empty := ⟨_, rfl⟩
  loads_strip t v h := by simpa only [Bytes.strip_strip] using h
  parseInt
    | .int n => .ok n
    | _ => .error "int_type"
  parseFloat
    | .float x => .ok x
    | _ => .error "float_type"
  parseDatetime
    | .str "2026-05-23T15:00:00.000Z" =>
      .ok ⟨1779548400000000, some 0, by decide, by decide⟩
    | _ => .error "datetime_parsing"
  errorsText _ := ""
  localToUtc wall := some wall

theorem loads_ofTexts {texts : List (Bytes × Json)} {text : Bytes} {v : Json}
    (hfind : texts.find? (fun entry => entry.1 == text) = some (text, v))
    (htext : Bytes.strip text = text ∧ text ≠ [] ∧ text ≠ nullText) :
    (ofTexts texts).loads text = .ok v := by
  simp [ofTexts, htext, hfind]

theorem loads_ofTexts_strip (texts : List (Bytes × Json)) (t : Bytes) :
    (ofTexts texts).loads (Bytes.strip t) = (ofTexts texts).loads t := by
  simp only [ofTexts, Bytes.strip_strip]

/-- A text that is read is one of the given ones, apart from the whitespace around it. -/
theorem mem_of_loads_ofTexts {texts : List (Bytes × Json)} {t : Bytes} {v : Json}
    (h : (ofTexts texts).loads t = .ok v) (hv : v ≠ .null) : (Bytes.strip t, v) ∈ texts := by
  simp only [ofTexts] at h
  split_ifs at h
  · exact absurd (Except.ok.inj h).symm hv
  · split at h
    · next entry hfind =>
      have hkey := List.find?_some hfind
      rw [beq_iff_eq] at hkey
      rw [← hkey, ← Except.ok.inj h]
      exact List.mem_of_find?_eq_some hfind
    · cases h

end Runtime

/-- An event with no more than the required fields, as the bytes of a line and as
an object. -/
def sampleText : Bytes :=
  [123, 34, 118, 101, 110, 100, 111, 114, 34, 58, 34, 118, 34, 44, 34, 100, 101, 118, 105, 99,
    101, 95, 105, 100, 34, 58, 34, 100, 34, 44, 34, 115, 101, 115, 115, 105, 111, 110, 95, 105,
    100, 34, 58, 34, 115, 34, 44, 34, 116, 121, 112, 101, 34, 58, 34, 101, 118, 101, 110, 116, 34,
    44, 34, 110, 97, 109, 101, 34, 58, 34, 110, 34, 44, 34, 116, 115, 34, 58, 34, 50, 48, 50, 54,
    45, 48, 53, 45, 50, 51, 84, 49, 53, 58, 48, 48, 58, 48, 48, 46, 48, 48, 48, 90, 34, 44, 34,
    116, 115, 95, 109, 115, 34, 58, 49, 55, 55, 57, 53, 52, 56, 52, 48, 48, 48, 48, 48, 125]

example : sampleText = Utf8.encode
    ("\x7b\"vendor\":\"v\",\"device_id\":\"d\",\"session_id\":\"s\",\"type\":\"event\"," ++
      "\"name\":\"n\",\"ts\":\"2026-05-23T15:00:00.000Z\",\"ts_ms\":1779548400000\x7d").toList := by
  decide +kernel

def sampleEvent : JsonObject :=
  [("vendor", .str "v"), ("device_id", .str "d"), ("session_id", .str "s"),
    ("type", .str "event"), ("name", .str "n"), ("ts", .str "2026-05-23T15:00:00.000Z"),
    ("ts_ms", .int 1779548400000)]

def sampleRuntime : Runtime := .ofTexts [(sampleText, .obj sampleEvent), ([91, 93], .arr [])]

/-- `ts.astimezone(utc)`, in microseconds; an aware value whose UTC reading
leaves the years 1 to 9999 overflows. -/
def DateTime.toUtc (rt : Runtime) (t : DateTime) : Option Int :=
  match t.offset with
  | some o =>
    let utc := t.wall - o * 1000000
    if minInstant ≤ utc ∧ utc ≤ maxInstant then some utc else none
  | none => rt.localToUtc t.wall

end TelemetryApi
