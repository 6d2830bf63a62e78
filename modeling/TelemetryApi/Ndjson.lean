import TelemetryApi.Foundations.LineNumbers
import TelemetryApi.Foundations.Split
import TelemetryApi.Runtime

/-!
# The ndjson body parser

`iter_ndjson_lines` and `parse_ndjson` of `app/ndjson.py`. A bad line becomes a
soft error and does not fail the batch.
-/

namespace TelemetryApi

/-- A message of `IngestResponse.errors`, by its position and reason. -/
inductive SoftError where
  | invalidJson (line : Nat) (reason : String)
  | lineNotObject (line : Nat)
  | itemNotObject (item : Nat)
  | invalidEvent (idx : Nat) (details : String)

/-- The number that the message names. -/
def SoftError.position : SoftError → Nat
  | .invalidJson lineno _ => lineno
  | .lineNotObject lineno => lineno
  | .itemNotObject i => i
  | .invalidEvent idx _ => idx

def SoftError.text : SoftError → String
  | .invalidJson lineno exc => s!"line {lineno}: invalid JSON ({exc})"
  | .lineNotObject lineno => s!"line {lineno}: top-level value must be an object"
  | .itemNotObject i => s!"item {i}: must be an object"
  | .invalidEvent idx errors => s!"event {idx}: {errors}"

/-- The non-empty stripped lines with their numbers; `lineno` counts the lines
already read. -/
def iterLinesFrom : Nat → List Bytes → List (Nat × Bytes)
  | _, [] => []
  | lineno, chunk :: rest =>
    let s := Bytes.strip chunk
    if s = [] then iterLinesFrom (lineno + 1) rest
    else (lineno + 1, s) :: iterLinesFrom (lineno + 1) rest

def iterNdjsonLines (raw : Bytes) : List (Nat × Bytes) := iterLinesFrom 0 (Bytes.splitlines raw)

variable (rt : Runtime)

/-- One pass of the loop of `parse_ndjson` over `out` and `errors`. -/
def parseNdjsonStep (acc : List JsonObject × List SoftError) (line : Nat × Bytes) :
    List JsonObject × List SoftError :=
  match rt.loads line.2 with
  | .error exc => (acc.1, acc.2 ++ [.invalidJson line.1 exc])
  | .ok (.obj fields) => (acc.1 ++ [fields], acc.2)
  | .ok _ => (acc.1, acc.2 ++ [.lineNotObject line.1])

def parseNdjson (raw : Bytes) : List JsonObject × List SoftError :=
  (iterNdjsonLines raw).foldl (parseNdjsonStep rt) ([], [])

/-! ## What the loop returns -/

/-- The object a text was read as, if it was read as one. -/
def readObject : Except String Json → Option JsonObject
  | .ok (.obj fields) => some fields
  | _ => none

/-- The object a line holds, if it holds one. -/
def lineObject (line : Bytes) : Option JsonObject := readObject (rt.loads line)

/-- The error a line is reported with, unless it holds an object. -/
def lineError (line : Nat × Bytes) : Option SoftError :=
  match rt.loads line.2 with
  | .error exc => some (.invalidJson line.1 exc)
  | .ok (.obj _) => none
  | .ok _ => some (.lineNotObject line.1)

theorem parseNdjsonStep_eq (acc : List JsonObject × List SoftError) (line : Nat × Bytes) :
    parseNdjsonStep rt acc line =
      (acc.1 ++ (lineObject rt line.2).toList, acc.2 ++ (lineError rt line).toList) := by
  simp only [parseNdjsonStep, lineObject, readObject, lineError]
  cases rt.loads line.2 with
  | error exc => simp
  | ok v => cases v <;> simp

theorem iterLinesFrom_map_snd (lineno : Nat) (chunks : List Bytes) :
    (iterLinesFrom lineno chunks).map (·.2) = Bytes.nonBlank chunks := by
  induction chunks generalizing lineno with
  | nil => rfl
  | cons chunk chunks ih =>
    rw [iterLinesFrom, Bytes.nonBlank_cons]
    by_cases h : Bytes.strip chunk = []
    · simp [h, ih]
    · simp [h, ih]

/-- The objects are those of the content lines, in body order. -/
theorem parseNdjson_objects (raw : Bytes) :
    (parseNdjson rt raw).1 = (Bytes.contentLines raw).filterMap (lineObject rt) := by
  rw [parseNdjson, foldl_append_readings _ (parseNdjsonStep_eq rt), Bytes.contentLines,
    Bytes.splitlines, ← iterLinesFrom_map_snd 0, List.filterMap_map]
  rfl

/-- A line is reported exactly when it holds no object. -/
theorem complementary_lines (lines : List (Nat × Bytes)) :
    Complementary (fun line => lineObject rt line.2) (lineError rt) lines := by
  intro line _
  show (lineObject rt line.2).isSome = !(lineError rt line).isSome
  simp only [lineObject, readObject, lineError]
  cases rt.loads line.2 with
  | error exc => rfl
  | ok v => cases v <;> rfl

/-- Every content line is an object or an error. -/
theorem parseNdjson_length (raw : Bytes) :
    (parseNdjson rt raw).1.length + (parseNdjson rt raw).2.length =
      (Bytes.contentLines raw).length := by
  have hlines : (iterNdjsonLines raw).length = (Bytes.contentLines raw).length := by
    rw [Bytes.contentLines, Bytes.splitlines, ← iterLinesFrom_map_snd 0, List.length_map]
    rfl
  rw [← hlines, parseNdjson, foldl_append_readings _ (parseNdjsonStep_eq rt)]
  exact (complementary_lines rt (iterNdjsonLines raw)).length_add

/-! ## Bodies as sequences of lines -/

theorem iterLinesFrom_eq (lineno : Nat) (chunks : List Bytes) :
    iterLinesFrom lineno chunks = Bytes.contents (Bytes.numbered lineno chunks) := by
  induction chunks generalizing lineno with
  | nil => rfl
  | cons chunk chunks ih =>
    rw [iterLinesFrom, Bytes.numbered, Bytes.contents_cons, ← ih]
    by_cases h : Bytes.strip chunk = [] <;> simp [h]

/-- The numbers of the lines increase. -/
theorem iterLinesFrom_increasing (lineno : Nat) (chunks : List Bytes) :
    (lineno :: (iterLinesFrom lineno chunks).map (·.1)).Pairwise (· < ·) := by
  induction chunks generalizing lineno with
  | nil => simp [iterLinesFrom]
  | cons chunk chunks ih =>
    obtain ⟨hrest, hpair⟩ := List.pairwise_cons.mp (ih (lineno + 1))
    have hlarger : ∀ n ∈ (iterLinesFrom (lineno + 1) chunks).map (·.1), lineno < n := by
      intro n hn
      have := hrest n hn
      omega
    rw [iterLinesFrom]
    by_cases h : Bytes.strip chunk = []
    · rw [if_pos h]
      exact List.pairwise_cons.mpr ⟨hlarger, hpair⟩
    · rw [if_neg h]
      exact List.pairwise_cons.mpr
        ⟨List.forall_mem_cons.mpr ⟨Nat.lt_succ_self lineno, hlarger⟩, ih (lineno + 1)⟩

/-- A line without an object is reported under its number. -/
theorem position_lineError (line : Nat × Bytes) :
    (lineError rt line).map SoftError.position =
      if (lineObject rt line.2).isNone then some line.1 else none := by
  cases hload : rt.loads line.2 with
  | error exc => simp [lineError, lineObject, readObject, hload, SoftError.position]
  | ok v => cases v <;> simp [lineError, lineObject, readObject, hload, SoftError.position]

theorem parseNdjson_eq (raw : Bytes) :
    parseNdjson rt raw = ((iterNdjsonLines raw).filterMap fun line => lineObject rt line.2,
      (iterNdjsonLines raw).filterMap (lineError rt)) := by
  rw [parseNdjson, foldl_append_readings _ (parseNdjsonStep_eq rt), List.nil_append,
    List.nil_append]

/-- A line of a body without its terminator: the text of an object, a text that is
none once it is stripped, or a blank. -/
inductive BodyLine where
  | object (text : Bytes) (fields : JsonObject) (noBreak : Bytes.NoBreak text)
      (loads : rt.loads text = .ok (.obj fields))
  | bad (text : Bytes) (noBreak : Bytes.NoBreak text) (notBlank : Bytes.strip text ≠ [])
      (notObject : lineObject rt (Bytes.strip text) = none)
  | blank (text : Bytes) (noBreak : Bytes.NoBreak text) (isBlank : Bytes.strip text = [])

namespace BodyLine

variable {rt}

def text : BodyLine rt → Bytes
  | object text _ _ _ => text
  | bad text _ _ _ => text
  | blank text _ _ => text

def fields : BodyLine rt → Option JsonObject
  | object _ fields _ _ => some fields
  | bad _ _ _ _ => none
  | blank _ _ _ => none

def isBad : BodyLine rt → Bool
  | object _ _ _ _ => false
  | bad _ _ _ _ => true
  | blank _ _ _ => false

theorem noBreak (l : BodyLine rt) : Bytes.NoBreak l.text := by
  cases l with
  | object _ _ h _ => exact h
  | bad _ h _ _ => exact h
  | blank _ h _ => exact h

/-- What `parse_ndjson` makes of one line with its number. -/
theorem filterMap_contents (n : Nat) (l : BodyLine rt) :
    (Bytes.contents [(n, l.text)]).filterMap (fun line => lineObject rt line.2) =
        l.fields.toList ∧
      ((Bytes.contents [(n, l.text)]).filterMap (lineError rt)).map SoftError.position =
        if l.isBad then [n] else [] := by
  cases l with
  | object text fields _ h =>
    have hne : Bytes.strip text ≠ [] := by
      intro hblank
      obtain ⟨exc, hexc⟩ := rt.loads_blank hblank
      rw [h] at hexc
      cases hexc
    have hstrip := rt.loads_strip text _ h
    simp [Bytes.contents, BodyLine.text, hne, lineObject, lineError, readObject, hstrip,
      BodyLine.fields, isBad]
  | bad text _ hne hobject =>
    have herror : (lineError rt (n, Bytes.strip text)).map SoftError.position = some n := by
      rw [position_lineError, hobject]
      rfl
    obtain ⟨e, he, hposition⟩ := Option.map_eq_some_iff.mp herror
    simp [Bytes.contents, BodyLine.text, hne, hobject, he, hposition, BodyLine.fields, isBad]
  | blank text _ h =>
    simp [Bytes.contents, BodyLine.text, h, BodyLine.fields, isBad]

end BodyLine

/-- The message of a line begins with its number. -/
theorem text_lineError {line : Nat × Bytes} {e : SoftError} (h : lineError rt line = some e) :
    ∃ reason : String, e.text = s!"line {e.position}: {reason}" := by
  simp only [lineError] at h
  split at h
  · rename_i exc _
    cases h
    exact ⟨s!"invalid JSON ({exc})", by
      simp [SoftError.text, SoftError.position, toString, ← String.toList_inj]⟩
  · cases h
  · cases h
    exact ⟨"top-level value must be an object", by
      simp [SoftError.text, SoftError.position, toString, ← String.toList_inj]⟩

/-- The objects are those of the object lines, and there is one error for each bad
line, which names the number of the line in the body; both are in body order. -/
theorem parseNdjson_joinLines (lines : List (BodyLine rt × Bytes.Terminator))
    (last : BodyLine rt) :
    (parseNdjson rt (Bytes.joinLines BodyLine.text lines last)).1 =
        (Bytes.physicalLines BodyLine.text [] lines last).filterMap (fun l => l.2.fields) ∧
      (parseNdjson rt (Bytes.joinLines BodyLine.text lines last)).2.map SoftError.position =
        ((Bytes.physicalLines BodyLine.text [] lines last).filter fun l => l.2.isBad).map
          (·.1) ∧
      ∀ e ∈ (parseNdjson rt (Bytes.joinLines BodyLine.text lines last)).2,
        ∃ reason : String, e.text = s!"line {e.position}: {reason}" := by
  have hlines : iterNdjsonLines (Bytes.joinLines BodyLine.text lines last) =
      Bytes.contents ((Bytes.physicalLines BodyLine.text [] lines last).map
        fun l => (l.1, l.2.text)) := by
    rw [iterNdjsonLines, iterLinesFrom_eq]
    exact Bytes.contents_numbered_joinLines [] (fun l _ => l.1.noBreak) last.noBreak
  rw [parseNdjson_eq, hlines]
  dsimp only
  rw [← and_assoc]
  refine ⟨?_, fun e he => ?_⟩
  swap
  · obtain ⟨line, -, hline⟩ := List.mem_filterMap.mp he
    exact text_lineError rt hline
  generalize Bytes.physicalLines BodyLine.text [] lines last = all
  induction all with
  | nil => exact ⟨rfl, rfl⟩
  | cons l all ih =>
    obtain ⟨hobjects, herrors⟩ := BodyLine.filterMap_contents l.1 l.2
    have hsplit : Bytes.contents ((l :: all).map fun l => (l.1, l.2.text)) =
        Bytes.contents [(l.1, l.2.text)] ++
          Bytes.contents (all.map fun l => (l.1, l.2.text)) := by
      rw [List.map_cons, Bytes.contents, Bytes.contents, Bytes.contents, ← List.filterMap_append]
      rfl
    rw [hsplit, List.filterMap_append, List.filterMap_append, List.map_append, hobjects, herrors,
      ih.1, ih.2]
    constructor
    · cases hf : l.2.fields <;> simp [hf]
    · cases hb : l.2.isBad <;> simp [hb]

/-- A JSON text with a form feed in front, which orjson refuses and `bytes.strip`
removes. -/
def formFeedText : Bytes := [12, 123, 125]

/-- No text with a form feed is JSON. -/
def formFeedRuntime : Runtime :=
  let base := Runtime.ofTexts [([123, 125], .obj [])]
  { base with
    loads := fun t =>
      if 12 ∈ t then .error "unexpected character: line 1 column 1 (char 0)" else base.loads t
    loads_null := base.loads_null
    loads_empty := base.loads_empty
    loads_strip := by
      intro t v h
      split_ifs at h with hff
      have hstrip : 12 ∉ Bytes.strip t := fun hmem => hff (Bytes.mem_of_mem_strip hmem)
      rw [if_neg hstrip]
      exact base.loads_strip t v h }

/-- The line is refused as it stands and read as an object all the same. -/
theorem parseNdjson_formFeed :
    Bytes.NoBreak formFeedText ∧ (∃ b ∈ formFeedText, ¬ Bytes.isSpace b) ∧
      (∃ exc, formFeedRuntime.loads formFeedText = .error exc) ∧
      parseNdjson formFeedRuntime formFeedText = ([[]], []) :=
  ⟨by decide, ⟨123, by decide, by decide⟩, ⟨_, rfl⟩, rfl⟩

end TelemetryApi
