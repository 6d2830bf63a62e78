import TelemetryApi.Routes.Records

/-!
# Two readings of one JSON value

A body sent as `application/json` goes to the ndjson parser as soon as it holds
a line feed. The same value may then be read as its records, or as the lines its
text happens to have.
-/

namespace TelemetryApi

def Request.json (authorization : Option String) (body : Bytes) : Request :=
  ⟨authorization, some "application/json", body⟩

/-- The records of an object or an array, with the object each of them holds. -/
def Json.records : Json → List (Option JsonObject)
  | .obj fields => [some fields]
  | .arr items => items.map Json.asObject
  | _ => []

/-- The body is an object or an array of objects. -/
def Json.IsPayload : Json → Prop
  | .obj _ => True
  | .arr items => ∀ item ∈ items, item.asObject.isSome
  | _ => False

/-- The objects among the records. -/
def Json.objects (v : Json) : List JsonObject := v.records.reduceOption

/-- What a caller sees of the effect of a request: the rows that became durable
and the counts of the answer. -/
def observed (p : Answer × List OrmRow) : List OrmRow × Option (Int × Int) :=
  (p.2, match p.1.body with
    | .response r => some (r.accepted, r.rejected)
    | _ => none)

section Readings

variable (settings : Settings) (rt : Runtime)

/-- The records of a text that is read line by line. -/
def lineRecords (t : Bytes) : List (Option JsonObject) :=
  (Bytes.contentLines t).map (lineObject rt)

/-- The objects that single lines of the text hold. -/
def lineObjects (t : Bytes) : List JsonObject := (Bytes.contentLines t).filterMap (lineObject rt)

/-- A reading is not answered with 200: it has too many objects, or one of them
has malformed `props`. -/
def BreaksOff (records : List (Option JsonObject)) : Prop :=
  settings.maxEventsPerRequest < records.reduceOption.length ∨
    ∃ o ∈ records.reduceOption, BadProps o

/-- Two readings have the same effect: both break off, or they have as many
records and the same accepted events in the same order. -/
def SameEffect (records records' : List (Option JsonObject)) : Prop :=
  (BreaksOff settings records ∧ BreaksOff settings records') ∨
    ¬ BreaksOff settings records ∧ ¬ BreaksOff settings records' ∧
      records.length = records'.length ∧
      acceptedRows rt records.reduceOption = acceptedRows rt records'.reduceOption

/-- The body of the request is read as these records. -/
structure ReadAs (req : Request) (records : List (Option JsonObject)) : Prop where
  size_le : req.body.length ≤ settings.maxBodyBytes
  parse : ∃ parsed, parseBody rt req = .ok parsed ∧ parsed.rawObjects = records.reduceOption ∧
    parsed.rawObjects.length + parsed.parseErrors.length = records.length

/-- Whatever the database, the two texts store the same rows and are answered with the same
counts. -/
def AnsweredAlike (authorization : Option String) (t compact : Bytes) : Prop :=
  ∀ db store, observed (postEvents settings rt db store (.json authorization t)) =
    observed (postEvents settings rt db store (.json authorization compact))

variable {settings rt}

theorem ReadAs.prepare_of_breaksOff {req : Request} {records : List (Option JsonObject)}
    (h : ReadAs settings rt req records) (hbreak : BreaksOff settings records) :
    ∃ e, prepareBatch settings rt req = .error e := by
  obtain ⟨parsed, hparse, hobjects, -⟩ := h.parse
  cases hprep : prepareBatch settings rt req with
  | error e => exact ⟨e, rfl⟩
  | ok b =>
    obtain ⟨-, hparse', hcap, hgood, -⟩ := (prepareBatch_eq_ok_iff settings rt).mp hprep
    obtain rfl : parsed = b.parsed := Except.ok.inj (hparse.symm.trans hparse')
    rw [hobjects] at hcap hgood
    rcases hbreak with hlt | ⟨o, ho, hbad⟩
    · omega
    · exact absurd hbad (hgood o ho)

theorem ReadAs.prepare {req : Request} {records : List (Option JsonObject)}
    (h : ReadAs settings rt req records) (hgood : ¬ BreaksOff settings records) :
    ∃ b, prepareBatch settings rt req = .ok b ∧ b.rows = acceptedRows rt records.reduceOption ∧
      b.response.accepted = b.rows.length ∧
      b.response.rejected = records.length - b.rows.length := by
  obtain ⟨parsed, hparse, hobjects, hlen⟩ := h.parse
  rw [BreaksOff, not_or] at hgood
  push Not at hgood
  rw [← hobjects] at hgood
  refine ⟨⟨parsed, acceptedRows rt parsed.rawObjects,
      parsed.parseErrors ++ (parsed.rawObjects.zipIdx 1).filterMap (rejection rt)⟩,
    (prepareBatch_eq_ok_iff settings rt).mpr
      ⟨h.size_le, hparse, hgood.1, hgood.2, rfl, rfl⟩, by rw [hobjects], rfl, ?_⟩
  simp only [Batch.response]
  omega

variable (db : Database) (store : List OrmRow)

theorem ReadAs.observed_of_breaksOff {req : Request} {records : List (Option JsonObject)}
    (h : ReadAs settings rt req records)
    (hauth : settings.requireIngestToken req.authorization = .ok ())
    (hbreak : BreaksOff settings records) :
    observed (postEvents settings rt db store req) = ([], none) := by
  obtain ⟨e, he⟩ := h.prepare_of_breaksOff hbreak
  rw [postEvents_of_error settings rt db store hauth he]
  cases e <;> rfl

theorem ReadAs.observed_accepting {req : Request} {records : List (Option JsonObject)}
    (h : ReadAs settings rt req records)
    (hauth : settings.requireIngestToken req.authorization = .ok ())
    (hgood : ¬ BreaksOff settings records) :
    observed (postEvents settings rt .accepting store req) =
      (acceptedRows rt records.reduceOption,
        some (((acceptedRows rt records.reduceOption).length : Int),
          (records.length : Int) - (acceptedRows rt records.reduceOption).length)) := by
  obtain ⟨b, hb, hrows, haccepted, hrejected⟩ := h.prepare hgood
  rw [postEvents_accepting settings rt store hauth hb]
  rw [hrows] at haccepted hrejected
  simp only [observed, answerOf, haccepted, hrejected, hrows]

/-- Whatever the database does, it does the same with the same rows. -/
theorem observed_congr {req req' : Request} {b b' : Batch}
    (hauth : settings.requireIngestToken req.authorization = .ok ())
    (hauth' : settings.requireIngestToken req'.authorization = .ok ())
    (hb : prepareBatch settings rt req = .ok b) (hb' : prepareBatch settings rt req' = .ok b')
    (hrows : b.rows = b'.rows) (haccepted : b.response.accepted = b'.response.accepted)
    (hrejected : b.response.rejected = b'.response.rejected) :
    observed (postEvents settings rt db store req) =
      observed (postEvents settings rt db store req') := by
  have hcommit : ∀ pending, observed
      (answerOf ((db.commit store pending).outcome pending b.response).1,
        ((db.commit store pending).outcome pending b.response).2) = observed
      (answerOf ((db.commit store pending).outcome pending b'.response).1,
        ((db.commit store pending).outcome pending b'.response).2) := by
    intro pending
    cases db.commit store pending <;>
      simp [CommitReply.outcome, observed, answerOf, haccepted, hrejected]
  simp only [postEvents, sessionScope, ingestEvents]
  simp only [hauth, hauth', hb, hb', hrows]
  split_ifs with hempty
  · exact hcommit []
  · rw [Session.execute]
    cases db.execute store b'.rows with
    | none => exact hcommit ([] ++ b'.rows)
    | some message => rfl

/-- Two readings look the same over every database exactly when they have the
same effect. -/
theorem observed_eq_iff {req req' : Request} {records records' : List (Option JsonObject)}
    (h : ReadAs settings rt req records) (h' : ReadAs settings rt req' records')
    (hauth : settings.requireIngestToken req.authorization = .ok ())
    (hauth' : settings.requireIngestToken req'.authorization = .ok ()) :
    (∀ db store, observed (postEvents settings rt db store req) =
        observed (postEvents settings rt db store req')) ↔
      SameEffect settings rt records records' := by
  constructor
  · intro hsame
    -- a database that takes every row tells the readings apart
    have hsame := hsame .accepting []
    by_cases hbreak : BreaksOff settings records <;>
      by_cases hbreak' : BreaksOff settings records'
    · exact Or.inl ⟨hbreak, hbreak'⟩
    · rw [h.observed_of_breaksOff _ _ hauth hbreak, h'.observed_accepting _ hauth' hbreak'] at hsame
      simp at hsame
    · rw [h.observed_accepting _ hauth hbreak, h'.observed_of_breaksOff _ _ hauth' hbreak'] at hsame
      simp at hsame
    · rw [h.observed_accepting _ hauth hbreak, h'.observed_accepting _ hauth' hbreak'] at hsame
      simp only [Prod.mk.injEq, Option.some.injEq] at hsame
      obtain ⟨hrows, -, hrejected⟩ := hsame
      rw [hrows] at hrejected
      exact Or.inr ⟨hbreak, hbreak', by omega, hrows⟩
  · rintro (⟨hbreak, hbreak'⟩ | ⟨hgood, hgood', hlen, hrows⟩) db store
    · rw [h.observed_of_breaksOff db store hauth hbreak,
        h'.observed_of_breaksOff db store hauth' hbreak']
    · obtain ⟨b, hb, hbrows, hacc, hrej⟩ := h.prepare hgood
      obtain ⟨b', hb', hbrows', hacc', hrej'⟩ := h'.prepare hgood'
      have heq : b.rows = b'.rows := by rw [hbrows, hbrows', hrows]
      exact observed_congr db store hauth hauth' hb hb' heq (by rw [hacc, hacc', heq])
        (by rw [hrej, hrej', heq, hlen])

end Readings

section Texts

variable (rt : Runtime) {settings : Settings}

theorem not_isNdjson_json {authorization : Option String} {t : Bytes} (h : 10 ∉ t) :
    (Request.json authorization t).isNdjson = false := by
  have hct : PyStr.contains "ndjson" (PyStr.lower "application/json") = false := by decide
  have hlf : '\n' ∉ Utf8.decodeReplace t := by
    rwa [Utf8.newline_mem_decodeReplace]
  simp [Request.isNdjson, Request.json, hct, hlf]

theorem isNdjson_json {authorization : Option String} {t : Bytes} (h : 10 ∈ t) :
    (Request.json authorization t).isNdjson = true := by
  have hlf : '\n' ∈ Utf8.decodeReplace t := (Utf8.newline_mem_decodeReplace t).mpr h
  simp [Request.isNdjson, Request.json, hlf]

/-- Without a line feed a text is read as the records of its value. -/
theorem readAs_records {authorization : Option String} {t : Bytes} {v : Json}
    (hv : v.IsPayload) (hload : rt.loads t = .ok v) (hlf : 10 ∉ t)
    (hsize : t.length ≤ settings.maxBodyBytes) :
    ReadAs settings rt (.json authorization t) v.records := by
  refine ⟨hsize, ?_⟩
  have hne : t ≠ [] := by
    rintro rfl
    obtain ⟨exc, hexc⟩ := rt.loads_empty
    rw [hload] at hexc
    cases hexc
  have hjson : parseBody rt (.json authorization t) = parseJson rt t := by
    rw [parseBody, not_isNdjson_json hlf]
    rfl
  rw [hjson, parseJson, if_neg hne, hload]
  cases v with
  | obj fields => exact ⟨⟨[fields], []⟩, rfl, rfl, rfl⟩
  | arr items =>
    refine ⟨⟨(splitItems items).1, (splitItems items).2⟩, rfl, ?_, ?_⟩
    · rw [splitItems_objects, Json.records, reduceOption_map]
    · rw [splitItems_length, Json.records, List.length_map]
  | null | bool _ | int _ | float _ | str _ => exact absurd hv id

/-- With a line feed it is read line by line. -/
theorem readAs_lines {authorization : Option String} {t : Bytes} (hlf : 10 ∈ t)
    (hsize : t.length ≤ settings.maxBodyBytes) :
    ReadAs settings rt (.json authorization t) (lineRecords rt t) := by
  refine ⟨hsize, ⟨(parseNdjson rt t).1, (parseNdjson rt t).2⟩, ?_, ?_, ?_⟩
  · rw [parseBody, if_pos (isNdjson_json hlf)]
    rfl
  · rw [parseNdjson_objects, lineRecords, reduceOption_map]
  · rw [parseNdjson_length, lineRecords, List.length_map]

theorem length_lineRecords (t : Bytes) :
    (lineRecords rt t).length = (Bytes.contentLines t).length :=
  List.length_map _

theorem reduceOption_lineRecords (t : Bytes) : (lineRecords rt t).reduceOption = lineObjects rt t :=
  reduceOption_map _ _

theorem Json.IsPayload.length_objects {v : Json} (h : v.IsPayload) :
    v.objects.length = v.records.length := by
  rw [Json.objects, List.reduceOption_length_eq_iff]
  cases v with
  | obj fields => simp [Json.records]
  | arr items =>
    simp only [Json.records, List.forall_mem_map]
    exact h
  | null | bool _ | int _ | float _ | str _ => exact absurd h id

theorem not_breaksOff {records : List (Option JsonObject)}
    (hcap : records.reduceOption.length ≤ settings.maxEventsPerRequest)
    (hgood : ∀ o ∈ records.reduceOption, ¬ BadProps o) : ¬ BreaksOff settings records := by
  rintro (hlt | ⟨o, ho, hbad⟩)
  · omega
  · exact hgood o ho hbad

/-- What a reading has to be like to have the effect of one that is answered with 200. -/
theorem sameEffect_iff_of_not_breaksOff {records records' : List (Option JsonObject)}
    (h : ¬ BreaksOff settings records') :
    SameEffect settings rt records records' ↔
      ¬ BreaksOff settings records ∧ records.length = records'.length ∧
        acceptedRows rt records.reduceOption = acceptedRows rt records'.reduceOption := by
  simp [SameEffect, h]

/-- An object within the limits is read alike from one line, and from no text
with a line break inside. -/
theorem sameEffect_object_iff {t : Bytes} {o : JsonObject} (hload : rt.loads t = .ok (.obj o))
    (hkeep : ¬ BreaksOff settings (Json.obj o).records) :
    SameEffect settings rt (lineRecords rt t) (Json.obj o).records ↔
      Bytes.NoBreak (Bytes.strip t) := by
  constructor
  · intro hsame
    obtain ⟨-, hlen, -⟩ := (sameEffect_iff_of_not_breaksOff rt hkeep).mp hsame
    by_contra hbreak
    have htwo := Bytes.two_le_length_contentLines hbreak
    rw [length_lineRecords] at hlen
    simp only [Json.records, List.length_singleton] at hlen
    omega
  · intro hno
    have hne : Bytes.strip t ≠ [] := by
      intro hblank
      obtain ⟨exc, hexc⟩ := rt.loads_blank hblank
      rw [hload] at hexc
      cases hexc
    have hlines : lineRecords rt t = (Json.obj o).records := by
      rw [lineRecords, Bytes.contentLines_of_strip_noBreak hne hno]
      simp [lineObject, readObject, rt.loads_strip t _ hload, Json.records]
    rw [hlines]
    exact Or.inr ⟨hkeep, hkeep, rfl, rfl⟩

/-- The text of an object opens with a brace, that of an array with a bracket. -/
structure Runtime.Brackets (rt : Runtime) : Prop where
  obj : ∀ t fields, rt.loads t = .ok (.obj fields) → (Bytes.strip t).head? = some 123
  arr : ∀ t items, rt.loads t = .ok (.arr items) → (Bytes.strip t).head? = some 91

/-- The line on which an array opens holds no object. -/
theorem Runtime.Brackets.length_lineObjects_lt (hbrackets : rt.Brackets) {t : Bytes}
    {items : List Json} (hload : rt.loads t = .ok (.arr items)) :
    (lineObjects rt t).length < (Bytes.contentLines t).length := by
  have hopen := hbrackets.arr t items hload
  have hne : Bytes.strip t ≠ [] := by
    intro hnil
    rw [hnil] at hopen
    cases hopen
  obtain ⟨line, rest, hlines, hhead⟩ := Bytes.exists_contentLines_eq_cons hne
  have hnone : lineObject rt line = none := by
    have hmem : line ∈ Bytes.contentLines t := hlines ▸ List.mem_cons_self
    have hstrip : Bytes.strip line = line := by
      obtain ⟨l, -, hl⟩ := List.mem_map.mp (List.mem_of_mem_filter hmem)
      rw [← hl, Bytes.strip_strip]
    rw [lineObject]
    cases hline : rt.loads line with
    | error exc => rfl
    | ok v =>
      cases v with
      | obj fields =>
        have hbrace := hbrackets.obj line fields hline
        rw [hstrip, hhead, hopen] at hbrace
        cases hbrace
      | null | bool _ | int _ | float _ | str _ | arr _ => rfl
  rw [lineObjects, hlines, List.filterMap_cons_none hnone, List.length_cons]
  exact Nat.lt_succ_of_le (List.length_filterMap_le _ _)

/-- Of an array whose events are all accepted, the lines hold too few. -/
theorem not_sameEffect_array (hbrackets : rt.Brackets) {t : Bytes} {items : List Json}
    (hv : (Json.arr items).IsPayload) (hload : rt.loads t = .ok (.arr items))
    (hkeep : ¬ BreaksOff settings (Json.arr items).records)
    (haccepted : ∀ o ∈ (Json.arr items).objects, (acceptedRow rt o).isSome) :
    ¬ SameEffect settings rt (lineRecords rt t) (Json.arr items).records := by
  intro hsame
  obtain ⟨-, hlen, hrows⟩ := (sameEffect_iff_of_not_breaksOff rt hkeep).mp hsame
  have hall : (acceptedRows rt (Json.arr items).objects).length = (Json.arr items).objects.length :=
    List.filterMap_length_eq_length.mpr haccepted
  have hfew : (acceptedRows rt (lineObjects rt t)).length ≤ (lineObjects rt t).length :=
    List.length_filterMap_le _ _
  have hlines := hbrackets.length_lineObjects_lt rt hload
  rw [length_lineRecords, ← hv.length_objects] at hlen
  rw [reduceOption_lineRecords] at hrows
  rw [hrows, ← Json.objects, hall] at hfew
  omega

/-- The schema refuses the object, and its `props` are proper. -/
def Refused (o : JsonObject) : Prop := ¬ BadProps o ∧ acceptedRow rt o = none

theorem acceptedRows_eq_nil_of_refused {objects : List JsonObject}
    (h : ∀ o ∈ objects, Refused rt o) : acceptedRows rt objects = [] :=
  List.filterMap_eq_nil_iff.mpr fun o ho => (h o ho).2

/-- Where no object is accepted, the lines must be as many and hold no event either. -/
theorem sameEffect_refused_iff {t : Bytes} {v : Json} (hv : v.IsPayload)
    (hcap : v.objects.length ≤ settings.maxEventsPerRequest)
    (hrefused : ∀ o ∈ v.objects, Refused rt o) :
    SameEffect settings rt (lineRecords rt t) v.records ↔
      (Bytes.contentLines t).length = v.objects.length ∧ ∀ o ∈ lineObjects rt t, Refused rt o := by
  have hkeep : ¬ BreaksOff settings v.records := not_breaksOff hcap fun o ho => (hrefused o ho).1
  rw [sameEffect_iff_of_not_breaksOff rt hkeep, length_lineRecords, reduceOption_lineRecords,
    ← hv.length_objects, ← Json.objects, acceptedRows_eq_nil_of_refused rt hrefused]
  constructor
  · rintro ⟨hgood, hlen, hrows⟩
    refine ⟨hlen, fun o ho => ⟨fun hbad => hgood (Or.inr ⟨o, ?_, hbad⟩), ?_⟩⟩
    · rwa [reduceOption_lineRecords]
    · exact List.filterMap_eq_nil_iff.mp hrows o ho
  · rintro ⟨hlen, hlines⟩
    refine ⟨not_breaksOff ?_ ?_, hlen, acceptedRows_eq_nil_of_refused rt hlines⟩
    · rw [reduceOption_lineRecords]
      have hle : (lineObjects rt t).length ≤ (Bytes.contentLines t).length :=
        List.length_filterMap_le _ _
      omega
    · rw [reduceOption_lineRecords]
      exact fun o ho => (hlines o ho).1

/-- Where an object has malformed `props`, the lines must break the request off as well. -/
theorem sameEffect_badProps_iff {t : Bytes} {v : Json} (hbad : ∃ o ∈ v.objects, BadProps o) :
    SameEffect settings rt (lineRecords rt t) v.records ↔
      (∃ o ∈ lineObjects rt t, BadProps o) ∨
        settings.maxEventsPerRequest < (lineObjects rt t).length := by
  have hbreak : BreaksOff settings v.records := Or.inr hbad
  rw [or_comm, ← reduceOption_lineRecords]
  simp only [SameEffect, hbreak, and_true, not_true_eq_false, false_and, and_false, or_false]
  rfl

/-- Without a line feed the text is read as the other one is, and with one its lines
decide. -/
theorem answeredAlike_iff {authorization : Option String} {v : Json} {t compact : Bytes}
    (hauth : settings.requireIngestToken authorization = .ok ()) (hv : v.IsPayload)
    (ht : rt.loads t = .ok v) (hcompact : rt.loads compact = .ok v) (hline : 10 ∉ compact)
    (hsize : t.length ≤ settings.maxBodyBytes)
    (hcompactSize : compact.length ≤ settings.maxBodyBytes) :
    AnsweredAlike settings rt authorization t compact ↔
      10 ∉ t ∨ SameEffect settings rt (lineRecords rt t) v.records := by
  have hcompactRead : ReadAs settings rt (.json authorization compact) v.records :=
    readAs_records rt hv hcompact hline hcompactSize
  by_cases hlf : 10 ∈ t
  · rw [AnsweredAlike, observed_eq_iff (readAs_lines rt hlf hsize) hcompactRead hauth hauth]
    simp [hlf]
  · have hsame : SameEffect settings rt v.records v.records := by
      by_cases hbreak : BreaksOff settings v.records
      · exact Or.inl ⟨hbreak, hbreak⟩
      · exact Or.inr ⟨hbreak, hbreak, rfl, rfl⟩
    rw [AnsweredAlike, observed_eq_iff (readAs_records rt hv ht hlf hsize) hcompactRead hauth hauth]
    exact ⟨fun _ => Or.inl hlf, fun _ => hsame⟩

variable (settings) in
/-- A text without a line feed is answered as the one-line text of the same value. With
one, the text of an object with proper `props` is so exactly without a line break inside,
and that of an array of events never, if all of them are accepted; if none is, exactly
when there is a line for each of them and no line holds an event. Where `props` are
malformed, the lines must break the request off too; where they are not, there is a line
for each object at least. -/
theorem formatting_iff (hbrackets : rt.Brackets) (authorization : Option String) (v : Json)
    (t compact : Bytes) (hauth : settings.requireIngestToken authorization = .ok ())
    (hv : v.IsPayload) (ht : rt.loads t = .ok v) (hcompact : rt.loads compact = .ok v)
    (hline : 10 ∉ compact) (hsize : t.length ≤ settings.maxBodyBytes)
    (hcompactSize : compact.length ≤ settings.maxBodyBytes)
    (hcap : v.objects.length ≤ settings.maxEventsPerRequest) :
    (10 ∉ t → AnsweredAlike settings rt authorization t compact) ∧
    (∀ o, v = .obj o → ¬ BadProps o →
      (AnsweredAlike settings rt authorization t compact ↔
        10 ∉ t ∨ Bytes.NoBreak (Bytes.strip t))) ∧
    (∀ items, v = .arr items → (∀ o ∈ v.objects, (acceptedRow rt o).isSome) →
      (AnsweredAlike settings rt authorization t compact ↔ 10 ∉ t)) ∧
    ((∀ o ∈ v.objects, Refused rt o) →
      (AnsweredAlike settings rt authorization t compact ↔
        10 ∉ t ∨ (Bytes.contentLines t).length = v.objects.length ∧
          ∀ o ∈ lineObjects rt t, Refused rt o)) ∧
    ((∃ o ∈ v.objects, BadProps o) →
      (AnsweredAlike settings rt authorization t compact ↔
        10 ∉ t ∨ (∃ o ∈ lineObjects rt t, BadProps o) ∨
          settings.maxEventsPerRequest < (lineObjects rt t).length)) ∧
    ((∀ o ∈ v.objects, ¬ BadProps o) → AnsweredAlike settings rt authorization t compact →
      10 ∉ t ∨ (Bytes.contentLines t).length = v.objects.length) := by
  have halike := answeredAlike_iff rt hauth hv ht hcompact hline hsize hcompactSize
  rw [halike]
  refine ⟨Or.inl, ?_, ?_, ?_, ?_, ?_⟩
  · rintro o rfl hgood
    have hkeep : ¬ BreaksOff settings (Json.obj o).records := by
      refine not_breaksOff hcap fun o' ho' => ?_
      rwa [List.mem_singleton.mp ho']
    rw [sameEffect_object_iff rt ht hkeep]
  · rintro items rfl haccepted
    have hkeep : ¬ BreaksOff settings (Json.arr items).records :=
      not_breaksOff hcap fun o ho => not_badProps_of_isSome rt (haccepted o ho)
    have hnot := not_sameEffect_array rt hbrackets hv ht hkeep haccepted
    simp only [hnot, or_false]
  · intro hrefused
    rw [sameEffect_refused_iff rt hv hcap hrefused]
  · intro hbad
    rw [sameEffect_badProps_iff rt hbad]
  · intro hgood hsame
    refine hsame.imp_right fun hsame => ?_
    obtain ⟨-, hlen, -⟩ := (sameEffect_iff_of_not_breaksOff rt (not_breaksOff hcap hgood)).mp hsame
    rw [← length_lineRecords rt, hlen, hv.length_objects]

end Texts

/-- The event with a line break behind its opening brace. -/
def prettyText : Bytes := 123 :: 10 :: sampleText.tail

/-- The array of the event. -/
def arrayText : Bytes := 91 :: (sampleText ++ [93])

/-- A runtime that reads the event from one line and from two, and the array. -/
def prettyRuntime : Runtime :=
  .ofTexts [(prettyText, .obj sampleEvent), (sampleText, .obj sampleEvent),
    (arrayText, .arr [.obj sampleEvent])]

theorem brackets_prettyRuntime : prettyRuntime.Brackets where
  obj t fields h := by
    have hmem := Runtime.mem_of_loads_ofTexts h (by simp)
    simp only [List.mem_cons, Prod.mk.injEq, reduceCtorEq, and_false, List.not_mem_nil,
      or_false] at hmem
    obtain ⟨ht, -⟩ | ⟨ht, -⟩ := hmem
    · rw [ht]
      rfl
    · rw [ht]
      rfl
  arr t items h := by
    have hmem := Runtime.mem_of_loads_ofTexts h (by simp)
    simp only [List.mem_cons, Prod.mk.injEq, reduceCtorEq, and_false, List.not_mem_nil,
      or_false, false_or] at hmem
    rw [hmem.1]
    rfl

/-- A line feed behind the object does no harm; one inside it does, and one behind the
array. -/
theorem formatting_iff_sample :
    AnsweredAlike {} prettyRuntime none (sampleText ++ [10]) sampleText ∧
      ¬ AnsweredAlike {} prettyRuntime none prettyText sampleText ∧
      ¬ AnsweredAlike {} prettyRuntime none (arrayText ++ [10]) arrayText := by
  have hsample : prettyRuntime.loads sampleText = .ok (.obj sampleEvent) :=
    Runtime.loads_ofTexts rfl (by decide +kernel)
  have hpretty : prettyRuntime.loads prettyText = .ok (.obj sampleEvent) :=
    Runtime.loads_ofTexts rfl (by decide +kernel)
  have harray : prettyRuntime.loads arrayText = .ok (.arr [.obj sampleEvent]) :=
    Runtime.loads_ofTexts rfl (by decide +kernel)
  have htrailing : ∀ t, Bytes.strip (t ++ [10]) = t →
      prettyRuntime.loads (t ++ [10]) = prettyRuntime.loads t := by
    intro t ht
    rw [prettyRuntime, ← Runtime.loads_ofTexts_strip, ht]
  have hgood : ¬ BadProps sampleEvent := by decide +kernel
  have haccepted : ∀ o ∈ (Json.arr [.obj sampleEvent]).objects,
      (acceptedRow prettyRuntime o).isSome := by
    decide +kernel
  refine ⟨?_, ?_, ?_⟩
  · have hiff := (formatting_iff prettyRuntime {} brackets_prettyRuntime none (.obj sampleEvent)
      (sampleText ++ [10]) sampleText rfl trivial ((htrailing _ (by decide +kernel)).trans hsample)
      hsample (by decide +kernel) (by decide +kernel) (by decide +kernel) (by decide)).2.1
    exact (hiff _ rfl hgood).mpr (.inr (by decide +kernel))
  · have hiff := (formatting_iff prettyRuntime {} brackets_prettyRuntime none (.obj sampleEvent)
      prettyText sampleText rfl trivial hpretty hsample (by decide +kernel) (by decide +kernel)
      (by decide +kernel) (by decide)).2.1
    rw [hiff _ rfl hgood]
    decide +kernel
  · have hiff := (formatting_iff prettyRuntime {} brackets_prettyRuntime none
      (.arr [.obj sampleEvent]) (arrayText ++ [10]) arrayText rfl
      (by simp [Json.IsPayload, Json.asObject]) ((htrailing _ (by decide +kernel)).trans harray)
      harray (by decide +kernel) (by decide +kernel) (by decide +kernel) (by decide)).2.2.1
    rw [hiff _ rfl haccepted]
    decide +kernel

/-- Both texts are the same value, of which one request stores a row and the
other none; both are answered with 200. -/
theorem formatting_pretty :
    prettyRuntime.loads prettyText = .ok (.obj sampleEvent) ∧
      prettyRuntime.loads sampleText = .ok (.obj sampleEvent) ∧ 10 ∉ sampleText ∧
      (postEvents {} prettyRuntime .accepting []
        (.json none sampleText)).2.length = 1 ∧
      (postEvents {} prettyRuntime .accepting []
        (.json none prettyText)).1.status = 200 ∧
      (postEvents {} prettyRuntime .accepting []
        (.json none prettyText)).2.length = 0 := by
  refine ⟨Runtime.loads_ofTexts rfl (by decide +kernel),
    Runtime.loads_ofTexts rfl (by decide +kernel),
    ?_⟩
  decide +kernel

end TelemetryApi
