import TelemetryApi.Routes.ErrorPositions
import TelemetryApi.Routes.NdjsonBatch

/-!
# The status of an answer

The device drops or keeps a batch by the status alone. The contract tells the
statuses apart by the records of the body; the handler decides them in several
places on two parsing paths.
-/

namespace TelemetryApi

variable (settings : Settings) (rt : Runtime)

/-- The records of the body that are JSON objects. -/
def Request.objects (req : Request) : List JsonObject := (req.records rt).filterMap (·.2)

/-- The body or the number of its objects exceeds a limit. -/
def Request.TooLarge (req : Request) : Prop :=
  settings.maxBodyBytes < req.body.length ∨
    settings.maxEventsPerRequest < (req.objects rt).length

/-- The body is more than whitespace, neither `null` nor an empty array, and none of
its records is an object. -/
def Request.Unparseable (req : Request) : Prop :=
  Bytes.strip req.body ≠ [] ∧ rt.loads req.body ≠ .ok .null ∧
    rt.loads req.body ≠ .ok (.arr []) ∧ req.objects rt = []

/-- The status table of the wire contract. -/
structure StatusLaw (req : Request) (answer : Answer × List OrmRow) : Prop where
  tooLarge : answer.1.status = 413 ↔ req.TooLarge settings rt
  unparseable : ¬ req.TooLarge settings rt → (answer.1.status = 422 ↔ req.Unparseable rt)
  accepted : ¬ req.TooLarge settings rt → ¬ req.Unparseable rt → answer.1.status = 200
  untouched : answer.1.status = 413 ∨ answer.1.status = 422 → answer.2 = []

/-- The body is read line by line, or is empty, `null`, an object or an array. -/
def Request.Readable (req : Request) : Prop :=
  req.isNdjson ∨ req.body = [] ∨ rt.loads req.body = .ok .null ∨
    (∃ fields, rt.loads req.body = .ok (.obj fields)) ∨
      ∃ items, rt.loads req.body = .ok (.arr items)

/-- Lines or items of which none is an object, each reported as a soft error. -/
def Request.Unnoticed (req : Request) : Prop :=
  req.Unparseable rt ∧ (req.isNdjson ∨ ∃ items, rt.loads req.body = .ok (.arr items))

/-- Whitespace that is read as one JSON value. -/
def Request.BlankJson (req : Request) : Prop :=
  req.isNdjson = false ∧ req.body ≠ [] ∧ Bytes.strip req.body = []

/-- The bodies on which the handler keeps to the table. -/
def Request.KeepsTable (req : Request) : Prop :=
  settings.maxBodyBytes < req.body.length ∨
    settings.maxEventsPerRequest < (req.objects rt).length ∧ req.Readable rt ∨
    (req.objects rt).length ≤ settings.maxEventsPerRequest ∧
      (∀ o ∈ req.objects rt, ¬ BadProps o) ∧ ¬ req.Unnoticed rt ∧ ¬ req.BlankJson

/-! ## What the parser makes of the records -/

variable {settings rt} {req : Request}

theorem objects_of_parseBody {parsed : Parsed} (h : parseBody rt req = .ok parsed) :
    parsed.rawObjects = req.objects rt :=
  (parseBody_records rt h).1

theorem readable_iff : req.Readable rt ↔ ∃ parsed, parseBody rt req = .ok parsed := by
  rw [Request.Readable, parseBody, parseJson]
  by_cases hnd : req.isNdjson
  · simp [hnd]
  · by_cases hempty : req.body = []
    · simp [hnd, hempty, rt.loads_null]
    · cases hv : rt.loads req.body with
      | error exc => simp [hnd, hempty, hv]
      | ok v => cases v <;> simp [hnd, hempty, hv]

/-- A body that the JSON parser refuses has no records. -/
theorem objects_of_not_readable (h : ¬ req.Readable rt) : req.objects rt = [] := by
  simp only [Request.Readable, not_or, not_exists] at h
  obtain ⟨hnd, hempty, -, hobj, harr⟩ := h
  have hrecords : req.records rt = [] := by
    rw [Request.records, if_neg hnd, if_neg hempty]
    split
    · exact absurd ‹_› (hobj _)
    · exact absurd ‹_› (harr _)
    · rfl
  rw [Request.objects, hrecords]
  rfl

theorem not_blank_of_loads {v : Json} (h : rt.loads req.body = .ok v) :
    Bytes.strip req.body ≠ [] := by
  intro hblank
  obtain ⟨exc, hexc⟩ := rt.loads_blank hblank
  rw [h] at hexc
  cases hexc

/-- A refused body is unparseable unless it is whitespace. -/
theorem unparseable_iff_of_not_readable (h : ¬ req.Readable rt) :
    req.Unparseable rt ↔ Bytes.strip req.body ≠ [] := by
  have hobjects := objects_of_not_readable h
  simp only [Request.Readable, not_or, not_exists] at h
  obtain ⟨-, -, hnull, -, harr⟩ := h
  exact ⟨fun h => h.1, fun hblank => ⟨hblank, hnull, harr [], hobjects⟩⟩

/-- A body that is read and has no object is one of lines or an array. -/
theorem unnoticed_of_readable (h : req.Readable rt) (hunparseable : req.Unparseable rt) :
    req.Unnoticed rt := by
  refine ⟨hunparseable, ?_⟩
  obtain ⟨hblank, hnull, -, hobjects⟩ := hunparseable
  rcases h with hnd | hempty | hnull' | ⟨fields, hfields⟩ | harr
  · exact Or.inl hnd
  · exact absurd (by rw [hempty]; rfl) hblank
  · exact absurd hnull' hnull
  · by_cases hnd : req.isNdjson
    · exact Or.inl hnd
    · -- an object is a record of its own
      have hne : req.body ≠ [] := by
        intro hempty
        exact hblank (by rw [hempty]; rfl)
      rw [Request.objects, Request.records, if_neg hnd, if_neg hne, hfields] at hobjects
      cases hobjects
  · exact Or.inr harr

theorem not_blankJson_of_readable (h : req.Readable rt) : ¬ req.BlankJson := by
  rintro ⟨hnd, hne, hblank⟩
  rcases h with hnd' | hempty | hnull | ⟨fields, hfields⟩ | ⟨items, hitems⟩
  · rw [hnd] at hnd'
    cases hnd'
  · exact hne hempty
  · exact not_blank_of_loads hnull hblank
  · exact not_blank_of_loads hfields hblank
  · exact not_blank_of_loads hitems hblank

/-! ## The answer -/

variable (settings rt) (db : Database) (store : List OrmRow)

theorem status_of_tooLong (hauth : settings.requireIngestToken req.authorization = .ok ())
    (hbody : settings.maxBodyBytes < req.body.length) :
    (postEvents settings rt db store req).1.status = 413 ∧
      (postEvents settings rt db store req).2 = [] := by
  have hprep := prepareBatch_eq settings rt req
  rw [if_pos hbody] at hprep
  rw [postEvents_of_error settings rt db store hauth hprep]
  exact ⟨rfl, rfl⟩

theorem status_of_not_readable (hauth : settings.requireIngestToken req.authorization = .ok ())
    (hbody : req.body.length ≤ settings.maxBodyBytes) (hread : ¬ req.Readable rt) :
    (postEvents settings rt db store req).1.status = 422 ∧
      (postEvents settings rt db store req).2 = [] := by
  cases hparse : parseBody rt req with
  | ok parsed => exact absurd (readable_iff.mpr ⟨parsed, hparse⟩) hread
  | error e =>
    have hprep := prepareBatch_eq settings rt req
    rw [if_neg (by omega), hparse] at hprep
    obtain ⟨text, rfl⟩ := parseBody_eq_error rt hparse
    rw [postEvents_of_error settings rt db store hauth hprep]
    exact ⟨rfl, rfl⟩

theorem status_of_tooMany (hauth : settings.requireIngestToken req.authorization = .ok ())
    (hbody : req.body.length ≤ settings.maxBodyBytes) (hread : req.Readable rt)
    (hcap : settings.maxEventsPerRequest < (req.objects rt).length) :
    (postEvents settings rt db store req).1.status = 413 ∧
      (postEvents settings rt db store req).2 = [] := by
  obtain ⟨parsed, hparse⟩ := readable_iff.mp hread
  rw [← objects_of_parseBody hparse] at hcap
  have hprep := prepareBatch_eq settings rt req
  rw [if_neg (by omega), hparse] at hprep
  simp only [if_pos hcap] at hprep
  rw [postEvents_of_error settings rt db store hauth hprep]
  exact ⟨rfl, rfl⟩

theorem status_of_badProps (hauth : settings.requireIngestToken req.authorization = .ok ())
    (hbody : req.body.length ≤ settings.maxBodyBytes) (hread : req.Readable rt)
    (hcap : (req.objects rt).length ≤ settings.maxEventsPerRequest)
    (hbad : ∃ o ∈ req.objects rt, BadProps o) :
    (postEvents settings rt db store req).1.status = 500 := by
  obtain ⟨parsed, hparse⟩ := readable_iff.mp hread
  rw [← objects_of_parseBody hparse] at hcap hbad
  have hprep := prepareBatch_of_badProps settings rt hbody hparse hcap hbad
  rw [postEvents_of_error settings rt db store hauth hprep]
  rfl

theorem status_of_validated (hauth : settings.requireIngestToken req.authorization = .ok ())
    (hbody : req.body.length ≤ settings.maxBodyBytes) (hread : req.Readable rt)
    (hcap : (req.objects rt).length ≤ settings.maxEventsPerRequest)
    (hgood : ∀ o ∈ req.objects rt, ¬ BadProps o)
    (htakes : ∀ b, prepareBatch settings rt req = .ok b → db.Takes store b.rows) :
    (postEvents settings rt db store req).1.status = 200 := by
  obtain ⟨parsed, hparse⟩ := readable_iff.mp hread
  rw [← objects_of_parseBody hparse] at hcap hgood
  have hprep : prepareBatch settings rt req = .ok ⟨parsed, acceptedRows rt parsed.rawObjects,
      parsed.parseErrors ++ (parsed.rawObjects.zipIdx 1).filterMap (rejection rt)⟩ :=
    (prepareBatch_eq_ok_iff settings rt).mpr ⟨hbody, hparse, hcap, hgood, rfl, rfl⟩
  rw [postEvents_of_takes settings rt db store hauth hprep (htakes _ hprep)]
  rfl

/-! ## When the handler keeps to the table -/

variable {settings rt} {answer : Answer × List OrmRow}

theorem statusLaw_of_413 (hstatus : answer.1.status = 413 ∧ answer.2 = [])
    (hlarge : req.TooLarge settings rt) : StatusLaw settings rt req answer where
  tooLarge := ⟨fun _ => hlarge, fun _ => hstatus.1⟩
  unparseable := fun h => absurd hlarge h
  accepted := fun h => absurd hlarge h
  untouched := fun _ => hstatus.2

/-- Below the limits a refused body keeps to the table unless it is whitespace. -/
theorem statusLaw_of_422 (hstatus : answer.1.status = 422 ∧ answer.2 = [])
    (hread : ¬ req.Readable rt) :
    StatusLaw settings rt req answer ↔
      ¬ req.TooLarge settings rt ∧ Bytes.strip req.body ≠ [] := by
  have hne : ¬ answer.1.status = 413 := by
    rw [hstatus.1]
    decide
  rw [← unparseable_iff_of_not_readable hread]
  constructor
  · intro h
    have hlarge : ¬ req.TooLarge settings rt := fun hlarge => hne (h.tooLarge.mpr hlarge)
    exact ⟨hlarge, (h.unparseable hlarge).mp hstatus.1⟩
  · rintro ⟨hlarge, hunparseable⟩
    exact ⟨⟨fun h => absurd h hne, fun h => absurd h hlarge⟩,
      fun _ => ⟨fun _ => hunparseable, fun _ => hstatus.1⟩, fun _ h => absurd hunparseable h,
      fun _ => hstatus.2⟩

theorem not_statusLaw_of_500 (hstatus : answer.1.status = 500)
    (hlarge : ¬ req.TooLarge settings rt) (hobjects : req.objects rt ≠ []) :
    ¬ StatusLaw settings rt req answer := by
  intro h
  have haccepted := h.accepted hlarge fun hunparseable => hobjects hunparseable.2.2.2
  rw [hstatus] at haccepted
  cases haccepted

theorem statusLaw_of_200 (hstatus : answer.1.status = 200)
    (hlarge : ¬ req.TooLarge settings rt) :
    StatusLaw settings rt req answer ↔ ¬ req.Unparseable rt := by
  have hne : ¬ answer.1.status = 413 := by
    rw [hstatus]
    decide
  have hne' : ¬ answer.1.status = 422 := by
    rw [hstatus]
    decide
  constructor
  · intro h hunparseable
    exact hne' ((h.unparseable hlarge).mpr hunparseable)
  · intro hunparseable
    exact ⟨⟨fun h => absurd h hne, fun h => absurd h hlarge⟩,
      fun _ => ⟨fun h => absurd h hne', fun h => absurd h hunparseable⟩, fun _ _ => hstatus,
      fun h => absurd h (not_or.mpr ⟨hne, hne'⟩)⟩

variable (settings rt)

/-- A readable body below the limits is answered by the table unless the exception of
one of its objects takes the whole batch down, or none of its records is an object. -/
theorem statusLaw_iff_of_readable {req : Request}
    (hauth : settings.requireIngestToken req.authorization = .ok ())
    (htakes : ∀ b, prepareBatch settings rt req = .ok b → db.Takes store b.rows)
    (hbody : req.body.length ≤ settings.maxBodyBytes) (hread : req.Readable rt)
    (hcount : (req.objects rt).length ≤ settings.maxEventsPerRequest) :
    StatusLaw settings rt req (postEvents settings rt db store req) ↔
      req.KeepsTable settings rt := by
  have hlarge : ¬ req.TooLarge settings rt := not_or.mpr ⟨not_lt.mpr (by omega), not_lt.mpr hcount⟩
  by_cases hbad : ∃ o ∈ req.objects rt, BadProps o
  · obtain ⟨o, ho, hprops⟩ := hbad
    refine iff_of_false
      (not_statusLaw_of_500 (status_of_badProps settings rt db store hauth hbody hread hcount
        ⟨o, ho, hprops⟩) hlarge (List.ne_nil_of_mem ho)) ?_
    rintro (h | ⟨h, -⟩ | ⟨-, hgood, -⟩)
    · exact hlarge (Or.inl h)
    · exact hlarge (Or.inr h)
    · exact hgood o ho hprops
  · push Not at hbad
    rw [statusLaw_of_200
      (status_of_validated settings rt db store hauth hbody hread hcount hbad htakes) hlarge]
    constructor
    · intro hunparseable
      exact Or.inr (Or.inr ⟨hcount, hbad, fun h => hunparseable h.1,
        not_blankJson_of_readable hread⟩)
    · rintro (h | ⟨h, -⟩ | ⟨-, -, hunnoticed, -⟩) hunparseable
      · exact hlarge (Or.inl h)
      · exact hlarge (Or.inr h)
      · exact hunnoticed (unnoticed_of_readable hread hunparseable)

/-- A body that cannot be read is answered by the table unless it is whitespace. -/
theorem statusLaw_iff_of_not_readable {req : Request}
    (hauth : settings.requireIngestToken req.authorization = .ok ())
    (hbody : req.body.length ≤ settings.maxBodyBytes) (hread : ¬ req.Readable rt) :
    StatusLaw settings rt req (postEvents settings rt db store req) ↔
      req.KeepsTable settings rt := by
  have hobjects := objects_of_not_readable hread
  rw [statusLaw_of_422 (status_of_not_readable settings rt db store hauth hbody hread) hread]
  constructor
  · rintro ⟨hlarge, hblank⟩
    have hcount := not_lt.mp (not_or.mp hlarge).2
    refine Or.inr (Or.inr ⟨hcount, by simp [hobjects], ?_, fun h => hblank h.2.2⟩)
    rintro ⟨-, hnd | harr⟩
    · exact hread (Or.inl hnd)
    · exact hread (Or.inr (Or.inr (Or.inr (Or.inr harr))))
  · rintro (h | ⟨-, h⟩ | ⟨hcount, -, -, hblank⟩)
    · exact absurd h (not_lt.mpr (by omega))
    · exact absurd h hread
    · refine ⟨not_or.mpr ⟨not_lt.mpr (by omega), not_lt.mpr hcount⟩,
        fun hstrip => hblank ⟨?_, ?_, hstrip⟩⟩
      · cases hnd : req.isNdjson with
        | true => exact absurd (Or.inl hnd) hread
        | false => rfl
      · exact fun hempty => hread (Or.inr (Or.inl hempty))

/-- An authorised request whose valid events the database stores is answered by
the table exactly on the bodies described by `KeepsTable`. -/
theorem postEvents_statusLaw_iff (req : Request)
    (hauth : settings.requireIngestToken req.authorization = .ok ())
    (htakes : ∀ b, prepareBatch settings rt req = .ok b → db.Takes store b.rows) :
    StatusLaw settings rt req (postEvents settings rt db store req) ↔
      req.KeepsTable settings rt := by
  by_cases hbody : settings.maxBodyBytes < req.body.length
  · exact iff_of_true
      (statusLaw_of_413 (status_of_tooLong settings rt db store hauth hbody) (Or.inl hbody))
      (Or.inl hbody)
  have hfits : req.body.length ≤ settings.maxBodyBytes := by omega
  by_cases hread : req.Readable rt
  · by_cases hcap : settings.maxEventsPerRequest < (req.objects rt).length
    · exact iff_of_true
        (statusLaw_of_413 (status_of_tooMany settings rt db store hauth hfits hread hcap)
          (Or.inr hcap))
        (Or.inr (Or.inl ⟨hcap, hread⟩))
    · exact statusLaw_iff_of_readable settings rt db store hauth htakes hfits hread (by omega)
  · exact statusLaw_iff_of_not_readable settings rt db store hauth hfits hread

/-- An ndjson body of one line that is no JSON text. -/
def malformedRequest : Request where
  authorization := none
  contentType := some "application/x-ndjson"
  body := [120]

theorem postEvents_statusLaw_iff_malformed :
    StatusLaw {} sampleRuntime malformedRequest
        (postEvents {} sampleRuntime .accepting [] malformedRequest) ↔
      malformedRequest.KeepsTable {} sampleRuntime :=
  postEvents_statusLaw_iff {} sampleRuntime .accepting [] malformedRequest rfl
    fun _ _ => ⟨rfl, rfl⟩

/-- No record of the body is an object, and the answer is 200. -/
theorem postEvents_malformed :
    malformedRequest.Unparseable sampleRuntime ∧
      ¬ malformedRequest.TooLarge {} sampleRuntime ∧
      (postEvents {} sampleRuntime .accepting [] malformedRequest).1.status = 200 ∧
      ¬ StatusLaw {} sampleRuntime malformedRequest
        (postEvents {} sampleRuntime .accepting [] malformedRequest) := by
  have hobjects : malformedRequest.objects sampleRuntime = [] := by decide +kernel
  have hloads : ∃ exc, sampleRuntime.loads malformedRequest.body = .error exc :=
    ⟨"unexpected character: line 1 column 1 (char 0)", rfl⟩
  have hunparseable : malformedRequest.Unparseable sampleRuntime := by
    obtain ⟨exc, hexc⟩ := hloads
    refine ⟨by decide, ?_, ?_, hobjects⟩ <;> simp [hexc]
  have hlarge : ¬ malformedRequest.TooLarge {} sampleRuntime := by
    rw [Request.TooLarge, hobjects]
    decide
  have hstatus : (postEvents {} sampleRuntime .accepting [] malformedRequest).1.status = 200 := by
    decide +kernel
  refine ⟨hunparseable, hlarge, hstatus, fun h => ?_⟩
  exact (statusLaw_of_200 hstatus hlarge).mp h hunparseable

end TelemetryApi
