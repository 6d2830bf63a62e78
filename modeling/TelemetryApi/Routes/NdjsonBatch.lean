import TelemetryApi.Routes.Outcome

/-!
# Batches sent as ndjson

A device sends one object a line. Within both limits such a batch is answered
with 200, every accepted object stored on its own, unless the `TypeError` of
`coerce_props` breaks the validation loop off.
-/

namespace TelemetryApi

variable (rt : Runtime)

/-- Every content line of the body is the text of the object at its place. -/
def IsNdjson (body : Bytes) (objects : List JsonObject) : Prop :=
  (Bytes.contentLines body).map rt.loads = objects.map fun o => .ok (.obj o)

/-- The text of an object without a line break. -/
structure EventLine where
  text : Bytes
  object : JsonObject
  noBreak : Bytes.NoBreak text
  loads : rt.loads text = .ok (.obj object)

/-- Each line is terminated by LF. -/
def ndjsonBody (lines : List (EventLine rt)) : Bytes := lines.flatMap fun l => l.text ++ [10]

/-- Every list of objects can be sent: one line for each, in order. -/
theorem isNdjson_ndjsonBody (lines : List (EventLine rt)) :
    IsNdjson rt (ndjsonBody rt lines) (lines.map (·.object)) := by
  induction lines with
  | nil => rfl
  | cons l lines ih =>
    have hne : Bytes.strip l.text ≠ [] := by
      intro hblank
      obtain ⟨exc, hexc⟩ := rt.loads_blank hblank
      rw [l.loads] at hexc
      cases hexc
    have hbody : ndjsonBody rt (l :: lines) = l.text ++ 10 :: ndjsonBody rt lines := by
      simp [ndjsonBody]
    rw [IsNdjson, hbody, Bytes.contentLines_append_break l.noBreak (Or.inl rfl), if_neg hne,
      List.singleton_append, List.map_cons, List.map_cons, List.map_cons, ih,
      rt.loads_strip _ _ l.loads]

theorem parseNdjson_of_isNdjson {body : Bytes} {objects : List JsonObject}
    (h : IsNdjson rt body objects) : parseNdjson rt body = (objects, []) := by
  have hobjects : (parseNdjson rt body).1 = objects := by
    have hline : lineObject rt = readObject ∘ rt.loads := by
      funext line
      rfl
    rw [parseNdjson_objects, hline, ← List.filterMap_map, h, List.filterMap_map]
    exact List.filterMap_some
  have hlen := parseNdjson_length rt body
  have htotal : (Bytes.contentLines body).length = objects.length := by
    simpa using congrArg List.length h
  rw [hobjects, htotal] at hlen
  have herrors : (parseNdjson rt body).2 = [] := List.length_eq_zero_iff.mp (by omega)
  rw [← hobjects, ← herrors]

/-- A request as `bz.telemetry` sends it. -/
def Request.ndjson (authorization : Option String) (body : Bytes) : Request :=
  ⟨authorization, some "application/x-ndjson", body⟩

theorem isNdjson_ndjson (authorization : Option String) (body : Bytes) :
    (Request.ndjson authorization body).isNdjson := by
  have h : PyStr.contains "ndjson" (PyStr.lower "application/x-ndjson") = true := by decide
  rw [Request.isNdjson]
  exact Bool.or_eq_true_iff.mpr (Or.inl h)

theorem parseBody_ndjson (authorization : Option String) (body : Bytes) :
    parseBody rt (.ndjson authorization body) =
      .ok ⟨(parseNdjson rt body).1, (parseNdjson rt body).2⟩ := by
  rw [parseBody, if_pos (isNdjson_ndjson authorization body)]
  rfl

variable (settings : Settings) (store : List OrmRow)

section Prepare

variable {rt settings} {authorization : Option String} {body : Bytes} {objects : List JsonObject}
  (hbody : IsNdjson rt body objects) (hsize : body.length ≤ settings.maxBodyBytes)
  (hcap : objects.length ≤ settings.maxEventsPerRequest)

include hbody in
theorem parseBody_of_isNdjson :
    parseBody rt (.ndjson authorization body) = .ok ⟨objects, []⟩ := by
  rw [parseBody_ndjson, parseNdjson_of_isNdjson rt hbody]

include hbody hsize hcap

/-- Within the limits a batch is prepared with the rows of its accepted objects. -/
theorem prepareBatch_ndjson (hgood : ∀ o ∈ objects, ¬ BadProps o) :
    prepareBatch settings rt (.ndjson authorization body) =
      .ok ⟨⟨objects, []⟩, acceptedRows rt objects,
        (objects.zipIdx 1).filterMap (rejection rt)⟩ :=
  (prepareBatch_eq_ok_iff settings rt).mpr
    ⟨hsize, parseBody_of_isNdjson hbody, hcap, hgood, rfl, rfl⟩

/-- The one other outcome is the `TypeError` of `coerce_props`. -/
theorem prepareBatch_ndjson_of_badProps (hbad : ∃ o ∈ objects, BadProps o) :
    prepareBatch settings rt (.ndjson authorization body) =
      .error (.typeError "props must be an object") :=
  prepareBatch_of_badProps settings rt hsize (parseBody_of_isNdjson hbody) hcap hbad

end Prepare

/-- A batch within the limits is stored object by object exactly when none of
its objects has malformed `props`; the rows of one object then depend on that
object alone. -/
theorem ndjson_isolated_iff (authorization : Option String) (body : Bytes)
    (objects : List JsonObject) (hauth : settings.requireIngestToken authorization = .ok ())
    (hbody : IsNdjson rt body objects) (hsize : body.length ≤ settings.maxBodyBytes)
    (hcap : objects.length ≤ settings.maxEventsPerRequest) :
    ((postEvents settings rt .accepting store (.ndjson authorization body)).1.status = 200 ∧
      (postEvents settings rt .accepting store (.ndjson authorization body)).2 =
        acceptedRows rt objects ∧
      ∀ before o after, objects = before ++ o :: after →
        (postEvents settings rt .accepting store (.ndjson authorization body)).2 =
          acceptedRows rt before ++ (acceptedRow rt o).toList ++ acceptedRows rt after) ↔
      ∀ o ∈ objects, ¬ BadProps o := by
  constructor
  · rintro ⟨hstatus, -, -⟩ o ho hbad
    have hprep : prepareBatch settings rt (.ndjson authorization body) = _ :=
      prepareBatch_ndjson_of_badProps hbody hsize hcap ⟨o, ho, hbad⟩
    rw [postEvents_of_error settings rt .accepting store hauth hprep] at hstatus
    cases hstatus
  · intro hgood
    rw [postEvents_accepting settings rt store hauth (prepareBatch_ndjson hbody hsize hcap hgood)]
    refine ⟨rfl, rfl, ?_⟩
    rintro before o after rfl
    cases ho : acceptedRow rt o <;> simp [acceptedRows, ho]

def sampleLine : EventLine sampleRuntime where
  text := sampleText
  object := sampleEvent
  noBreak := by decide +kernel
  loads := Runtime.loads_ofTexts rfl (by decide +kernel)

theorem ndjson_isolated_iff_sample :
    ((postEvents {} sampleRuntime .accepting []
          (.ndjson none (ndjsonBody sampleRuntime [sampleLine, sampleLine]))).1.status = 200 ∧
      (postEvents {} sampleRuntime .accepting []
          (.ndjson none (ndjsonBody sampleRuntime [sampleLine, sampleLine]))).2 =
        acceptedRows sampleRuntime [sampleEvent, sampleEvent] ∧
      ∀ before o after, [sampleEvent, sampleEvent] = before ++ o :: after →
        (postEvents {} sampleRuntime .accepting []
            (.ndjson none (ndjsonBody sampleRuntime [sampleLine, sampleLine]))).2 =
          acceptedRows sampleRuntime before ++ (acceptedRow sampleRuntime o).toList ++
            acceptedRows sampleRuntime after) ↔
      ∀ o ∈ [sampleEvent, sampleEvent], ¬ BadProps o :=
  ndjson_isolated_iff sampleRuntime {} [] none _ _ rfl
    (isNdjson_ndjsonBody sampleRuntime [sampleLine, sampleLine]) (by decide +kernel) (by decide)

/-- An object whose only field is `props`, with the number 3. -/
def numericPropsText : Bytes := [123, 34, 112, 114, 111, 112, 115, 34, 58, 51, 125]

def numericPropsRuntime : Runtime :=
  .ofTexts [(numericPropsText, .obj [("props", .int 3)]), (sampleText, .obj sampleEvent)]

/-- A well-formed event and the object with malformed `props`. -/
def numericPropsLines : List (EventLine numericPropsRuntime) :=
  [{ text := sampleText
     object := sampleEvent
     noBreak := by decide +kernel
     loads := Runtime.loads_ofTexts rfl (by decide +kernel) },
   { text := numericPropsText
     object := [("props", .int 3)]
     noBreak := by decide +kernel
     loads := Runtime.loads_ofTexts rfl (by decide +kernel) }]

def numericPropsRequest : Request := .ndjson none (ndjsonBody _ numericPropsLines)

/-- The well-formed event of the batch would be stored on its own, and is lost
with the other one. -/
theorem ndjson_isolated_numericProps :
    IsNdjson numericPropsRuntime numericPropsRequest.body
        [sampleEvent, [("props", .int 3)]] ∧
      (postEvents {} numericPropsRuntime .accepting [] numericPropsRequest).1.status = 500 ∧
      (postEvents {} numericPropsRuntime .accepting [] numericPropsRequest).2.length = 0 ∧
      (acceptedRows numericPropsRuntime [sampleEvent, [("props", .int 3)]]).length = 1 := by
  refine ⟨isNdjson_ndjsonBody _ numericPropsLines, ?_⟩
  decide +kernel

end TelemetryApi
