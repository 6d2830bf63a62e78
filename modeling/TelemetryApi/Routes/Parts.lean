import TelemetryApi.Foundations.LineParts
import TelemetryApi.Routes.InsertParameters
import TelemetryApi.Routes.Persist
import TelemetryApi.Routes.Records

/-!
# A batch sent in parts

An ndjson body that is cut behind line breaks is read as its parts are, one after
the other; only the numbers in the errors count the lines of the whole body. So a
device may send a batch in as many requests as it likes, as long as none of them is too
large.
-/

namespace TelemetryApi

variable (rt : Runtime)

/-! ## The parser -/

/-- The error of the same line further down in a longer body. -/
def SoftError.movedDown (lines : Nat) : SoftError → SoftError
  | .invalidJson line reason => .invalidJson (lines + line) reason
  | .lineNotObject line => .lineNotObject (lines + line)
  | .itemNotObject item => .itemNotObject (lines + item)
  | .invalidEvent idx details => .invalidEvent (lines + idx) details

theorem lineError_movedDown (lines : Nat) (line : Nat × Bytes) :
    lineError rt (lines + line.1, line.2) = (lineError rt line).map (.movedDown lines) := by
  simp only [lineError]
  cases rt.loads line.2 with
  | error exc => rfl
  | ok v => cases v <;> rfl

theorem iterLinesFrom_add (lines lineno : Nat) (chunks : List Bytes) :
    iterLinesFrom (lines + lineno) chunks =
      (iterLinesFrom lineno chunks).map fun line => (lines + line.1, line.2) := by
  induction chunks generalizing lineno with
  | nil => rfl
  | cons chunk chunks ih =>
    rw [iterLinesFrom, iterLinesFrom, Nat.add_assoc, ih]
    by_cases h : Bytes.strip chunk = []
    · rw [if_pos h, if_pos h]
    · rw [if_neg h, if_neg h, List.map_cons]

/-- The lines of the second text are numbered behind those of the first. -/
theorem iterNdjsonLines_append {head tail : Bytes} (h : Bytes.CutAt head tail) :
    iterNdjsonLines (head ++ tail) = iterNdjsonLines head ++
      (iterNdjsonLines tail).map fun line => ((Bytes.splitlines head).length + line.1, line.2) := by
  rw [iterNdjsonLines, Bytes.splitlines_append h, iterLinesFrom_eq, Bytes.numbered_append,
    Bytes.contents_append, ← iterLinesFrom_eq, ← iterLinesFrom_eq, Nat.add_comm, iterLinesFrom_add]
  rfl

theorem parseNdjson_append {head tail : Bytes} (h : Bytes.CutAt head tail) :
    parseNdjson rt (head ++ tail) =
      ((parseNdjson rt head).1 ++ (parseNdjson rt tail).1,
        (parseNdjson rt head).2 ++
          (parseNdjson rt tail).2.map (.movedDown (Bytes.splitlines head).length)) := by
  simp only [parseNdjson_eq, iterNdjsonLines_append h, List.filterMap_append, List.filterMap_map,
    List.map_filterMap, Prod.mk.injEq, List.append_cancel_left_eq]
  constructor
  · rfl
  · congr 1
    funext line
    exact lineError_movedDown rt _ line

/-- The errors of the parts, with the numbers that their lines have behind so many
others. -/
def errorsOfParts : Nat → List Bytes → List SoftError
  | _, [] => []
  | lines, part :: rest =>
    (parseNdjson rt part).2.map (.movedDown lines) ++
      errorsOfParts (lines + (Bytes.splitlines part).length) rest

theorem SoftError.movedDown_movedDown (m n : Nat) (e : SoftError) :
    (e.movedDown m).movedDown n = e.movedDown (n + m) := by
  cases e <;> simp only [movedDown, Nat.add_assoc]

theorem SoftError.movedDown_zero (e : SoftError) : e.movedDown 0 = e := by
  cases e <;> simp only [movedDown, Nat.zero_add]

theorem errorsOfParts_movedDown (m n : Nat) (parts : List Bytes) :
    (errorsOfParts rt m parts).map (.movedDown n) = errorsOfParts rt (n + m) parts := by
  induction parts generalizing m with
  | nil => rfl
  | cons part rest ih =>
    rw [errorsOfParts, errorsOfParts, List.map_append, ih, List.map_map, Nat.add_assoc]
    congr 2
    funext e
    exact SoftError.movedDown_movedDown m n e

/-- `parse_ndjson` over any cutting of a body at its line ends: the objects of the parts
in order, and their errors with the numbers of the lines in the whole body. -/
theorem parseNdjson_parts (parts : List Bytes) (h : Bytes.LineParts parts) :
    parseNdjson rt parts.flatten =
      (parts.flatMap fun part => (parseNdjson rt part).1, errorsOfParts rt 0 parts) := by
  induction parts with
  | nil => rfl
  | cons part rest ih =>
    obtain ⟨hcut, hrest⟩ := h
    have hmoved : ∀ errors : List SoftError, errors.map (.movedDown 0) = errors := by
      intro errors
      apply List.map_id''
      exact SoftError.movedDown_zero
    obtain rfl | hcut := hcut
    · simp [errorsOfParts, hmoved]
    · rw [List.flatten_cons, parseNdjson_append rt hcut, ih hrest, List.flatMap_cons,
        errorsOfParts, hmoved, errorsOfParts_movedDown, Nat.add_comm]

/-- Three parts of a body, the second with an empty line and a CR at its end. -/
def bracketParts : List Bytes := [[91, 93, 10], [10, 123, 13], [91, 93]]

theorem parseNdjson_parts_brackets :
    parseNdjson sampleRuntime bracketParts.flatten =
        (bracketParts.flatMap fun part => (parseNdjson sampleRuntime part).1,
          errorsOfParts sampleRuntime 0 bracketParts) ∧
      (errorsOfParts sampleRuntime 0 bracketParts).map SoftError.position = [1, 3, 4] :=
  ⟨parseNdjson_parts sampleRuntime bracketParts
    ⟨.inr (.lf [91, 93] _), .inr (.cr [10, 123] _ (by decide)), .inl rfl, trivial⟩, by decide +kernel⟩

/-! ## The route -/

variable (settings : Settings) (authorization : Option String) (db : Database)

/-- The requests for the parts, one after the other: the answers, and the rows that the
table has in the end. -/
def postParts : List OrmRow → List Bytes → List Answer × List OrmRow
  | store, [] => ([], store)
  | store, part :: rest =>
    let (answer, inserted) :=
      postEvents settings rt db store (.ndjson authorization part)
    let (answers, final) := postParts (store ++ inserted) rest
    (answer :: answers, final)

def Answer.accepted (a : Answer) : Int :=
  match a.body with
  | .response r => r.accepted
  | _ => 0

def Answer.rejected (a : Answer) : Int :=
  match a.body with
  | .response r => r.rejected
  | _ => 0

/-- The rows of the accepted events. -/
def bodyRows (body : Bytes) : List OrmRow := acceptedRows rt (parseNdjson rt body).1

/-- No object of the text makes `coerce_props` raise, and the database takes the rows of the
accepted events. -/
def GoodObjects (Takes : OrmRow → Prop) (body : Bytes) : Prop :=
  (∀ o ∈ (parseNdjson rt body).1, ¬ BadProps o) ∧ ∀ row ∈ bodyRows rt body, Takes row

/-- The text is a request within both limits, and its rows are within that of the driver. -/
structure WithinLimits (body : Bytes) : Prop where
  size : body.length ≤ settings.maxBodyBytes
  cap : (parseNdjson rt body).1.length ≤ settings.maxEventsPerRequest
  rows : (bodyRows rt body).length ≤ 1820

section Sent

variable {rt settings authorization db} {Takes : OrmRow → Prop} {body : Bytes}

variable (authorization) in
theorem prepareBatch_within (hlimits : WithinLimits rt settings body)
    (hgood : ∀ o ∈ (parseNdjson rt body).1, ¬ BadProps o) :
    ∃ b, prepareBatch settings rt (.ndjson authorization body) = .ok b ∧
      b.rows = bodyRows rt body ∧
      b.parsed = ⟨(parseNdjson rt body).1, (parseNdjson rt body).2⟩ :=
  ⟨⟨⟨(parseNdjson rt body).1, (parseNdjson rt body).2⟩, bodyRows rt body,
      (parseNdjson rt body).2 ++ ((parseNdjson rt body).1.zipIdx 1).filterMap (rejection rt)⟩,
    (prepareBatch_eq_ok_iff settings rt).mpr
      ⟨hlimits.size, parseBody_ndjson rt authorization body, hlimits.cap, hgood, rfl, rfl⟩,
    rfl, rfl⟩

theorem bodyRows_flatten {parts : List Bytes} (hparts : Bytes.LineParts parts) :
    bodyRows rt parts.flatten = parts.flatMap (bodyRows rt) := by
  rw [bodyRows, parseNdjson_parts rt parts hparts, acceptedRows, List.filterMap_flatMap]
  rfl

theorem goodObjects_flatten_iff {parts : List Bytes} (hparts : Bytes.LineParts parts) :
    GoodObjects rt Takes parts.flatten ↔ ∀ part ∈ parts, GoodObjects rt Takes part := by
  simp only [GoodObjects, bodyRows_flatten hparts, parseNdjson_parts rt parts hparts,
    List.mem_flatMap]
  constructor
  · intro h part hpart
    exact ⟨fun o ho => h.1 o ⟨part, hpart, ho⟩, fun row hrow => h.2 row ⟨part, hpart, hrow⟩⟩
  · intro h
    refine ⟨?_, ?_⟩
    · rintro o ⟨part, hpart, ho⟩
      exact (h part hpart).1 o ho
    · rintro row ⟨part, hpart, hrow⟩
      exact (h part hpart).2 row hrow

variable (hauth : settings.requireIngestToken authorization = .ok ()) (hdb : db.RowByRow Takes)
  (store : List OrmRow)

include hauth hdb

theorem postEvents_within (hlimits : WithinLimits rt settings body)
    (hgood : GoodObjects rt Takes body) :
    ∃ answer, postEvents settings rt db store (.ndjson authorization body) =
        (answer, bodyRows rt body) ∧
      answer.status = 200 ∧ answer.accepted = (bodyRows rt body).length ∧
      answer.accepted + answer.rejected = (Bytes.contentLines body).length := by
  obtain ⟨b, hb, hrows, hparsed⟩ := prepareBatch_within authorization hlimits hgood.1
  have hexecute : b.rows ≠ [] → db.execute store b.rows = none := by
    intro hne
    rw [hdb.execute_iff store b.rows hne, insertBinds_le_iff, hrows]
    exact ⟨hlimits.rows, hgood.2⟩
  have hpost := postEvents_of_executes settings rt db store hauth hb hexecute
    (hdb.commit_eq store b.rows)
  rw [hrows] at hpost
  refine ⟨_, hpost, rfl, ?_, ?_⟩
  · simp only [Answer.accepted, answerOf, Batch.response, hrows]
  · have hlines := parseNdjson_length rt body
    simp only [Answer.accepted, Answer.rejected, answerOf, Batch.response, hparsed]
    omega

/-- Malformed `props` and a row that the database does not take end the request alike. -/
theorem postEvents_within_bad (hlimits : WithinLimits rt settings body)
    (hbad : ¬ GoodObjects rt Takes body) :
    (postEvents settings rt db store (.ndjson authorization body)).1.status ≠ 200 := by
  by_cases hprops : ∀ o ∈ (parseNdjson rt body).1, ¬ BadProps o
  · obtain ⟨b, hb, hrows, -⟩ := prepareBatch_within authorization hlimits hprops
    have hrefused : ¬ ∀ row ∈ b.rows, Takes row := fun htakes => hbad ⟨hprops, hrows ▸ htakes⟩
    have hne : b.rows ≠ [] := by
      rintro hnil
      exact hrefused (by simp [hnil])
    have hexecute : db.execute store b.rows ≠ none :=
      fun hnone => hrefused ((hdb.execute_iff store b.rows hne).mp hnone).2
    rw [postEvents_of_refused settings rt db store hauth hb hne hexecute]
    decide
  · push Not at hprops
    rw [postEvents_of_error settings rt db store hauth (prepareBatch_of_badProps settings rt
      hlimits.size (parseBody_ndjson rt authorization body) hlimits.cap hprops)]
    decide

/-- The parts store the accepted events of the whole body, and their answers together
account for its lines. -/
theorem postParts_good {parts : List Bytes} (hparts : Bytes.LineParts parts)
    (hlimits : ∀ part ∈ parts, WithinLimits rt settings part)
    (hgood : ∀ part ∈ parts, GoodObjects rt Takes part) :
    (∀ answer ∈ (postParts rt settings authorization db store parts).1, answer.status = 200) ∧
      (postParts rt settings authorization db store parts).2 =
        store ++ bodyRows rt parts.flatten ∧
      ((postParts rt settings authorization db store parts).1.map (·.accepted)).sum =
        (bodyRows rt parts.flatten).length ∧
      ((postParts rt settings authorization db store parts).1.map (·.accepted)).sum +
          ((postParts rt settings authorization db store parts).1.map (·.rejected)).sum =
        (Bytes.contentLines parts.flatten).length := by
  induction parts generalizing store with
  | nil =>
    have hempty : bodyRows rt [] = [] := rfl
    have hlines : Bytes.contentLines [] = [] := rfl
    simp [postParts, hempty, hlines]
  | cons part rest ih =>
    obtain ⟨answer, hpost, hstatus, haccepted, hcount⟩ := postEvents_within hauth hdb store
      (hlimits part List.mem_cons_self) (hgood part List.mem_cons_self)
    obtain ⟨hanswers, hfinal, hsum, hsums⟩ := ih (store ++ bodyRows rt part) hparts.2
      (fun part' h => hlimits part' (List.mem_cons_of_mem _ h))
      (fun part' h => hgood part' (List.mem_cons_of_mem _ h))
    have hrows : bodyRows rt (part :: rest).flatten =
        bodyRows rt part ++ bodyRows rt rest.flatten := by
      rw [bodyRows_flatten hparts, bodyRows_flatten hparts.2, List.flatMap_cons]
    have hlines : Bytes.contentLines (part :: rest).flatten =
        Bytes.contentLines part ++ Bytes.contentLines rest.flatten := by
      rw [Bytes.contentLines_flatten hparts, Bytes.contentLines_flatten hparts.2]
      rfl
    rw [postParts, hpost, hrows, hlines]
    simp only [List.map_cons, List.sum_cons, List.length_append, List.forall_mem_cons] at *
    refine ⟨⟨hstatus, hanswers⟩, ?_, ?_, ?_⟩
    · rw [hfinal, List.append_assoc]
    · push_cast
      omega
    · push_cast
      omega

/-- A part that is not taken is not answered with 200. -/
theorem postParts_bad {parts : List Bytes}
    (hlimits : ∀ part ∈ parts, WithinLimits rt settings part)
    (hbad : ∃ part ∈ parts, ¬ GoodObjects rt Takes part) :
    ∃ answer ∈ (postParts rt settings authorization db store parts).1, answer.status ≠ 200 := by
  induction parts generalizing store with
  | nil => simp at hbad
  | cons part rest ih =>
    rw [postParts]
    by_cases hpart : GoodObjects rt Takes part
    · obtain ⟨part', hmem, hbad'⟩ := hbad
      obtain rfl | hmem := List.mem_cons.mp hmem
      · exact absurd hpart hbad'
      · obtain ⟨answer, hanswer, hstatus⟩ := ih _
          (fun part h => hlimits part (List.mem_cons_of_mem _ h)) ⟨part', hmem, hbad'⟩
        exact ⟨answer, List.mem_cons_of_mem _ hanswer, hstatus⟩
    · exact ⟨_, List.mem_cons_self,
        postEvents_within_bad hauth hdb store (hlimits part List.mem_cons_self) hpart⟩

variable (rt) in
/-- All parts are answered with 200 exactly when the whole body has nothing to refuse. -/
theorem postParts_status_iff {parts : List Bytes} (hparts : Bytes.LineParts parts)
    (hlimits : ∀ part ∈ parts, WithinLimits rt settings part) :
    (∀ answer ∈ (postParts rt settings authorization db store parts).1, answer.status = 200) ↔
      GoodObjects rt Takes parts.flatten := by
  rw [goodObjects_flatten_iff hparts]
  constructor
  · intro hanswers
    by_contra hbad
    push Not at hbad
    obtain ⟨answer, hanswer, hstatus⟩ := postParts_bad hauth hdb store hlimits hbad
    exact hstatus (hanswers answer hanswer)
  · intro hgood
    exact (postParts_good hauth hdb store hparts hlimits hgood).1

end Sent

/-- However a body is cut behind line breaks, within the limits: a database that refuses a
batch for its rows answers the parts with 200 or not whatever the cutting is, and if it does
the rows stored, the events accepted and the lines rejected are the same. -/
theorem postParts_congr (hauth : settings.requireIngestToken authorization = .ok ())
    {Takes : OrmRow → Prop} (hdb : db.RowByRow Takes) (store : List OrmRow)
    (parts parts' : List Bytes) (hbody : parts.flatten = parts'.flatten)
    (hparts : Bytes.LineParts parts) (hparts' : Bytes.LineParts parts')
    (hlimits : ∀ part ∈ parts, WithinLimits rt settings part)
    (hlimits' : ∀ part ∈ parts', WithinLimits rt settings part) :
    let sent := postParts rt settings authorization db store parts
    let sent' := postParts rt settings authorization db store parts'
    ((∀ answer ∈ sent.1, answer.status = 200) ↔ ∀ answer ∈ sent'.1, answer.status = 200) ∧
      ((∀ answer ∈ sent.1, answer.status = 200) → sent.2 = sent'.2 ∧
        (sent.1.map (·.accepted)).sum = (sent'.1.map (·.accepted)).sum ∧
        (sent.1.map (·.rejected)).sum = (sent'.1.map (·.rejected)).sum) := by
  intro sent sent'
  have hiff := postParts_status_iff rt hauth hdb store hparts hlimits
  have hiff' := postParts_status_iff rt hauth hdb store hparts' hlimits'
  refine ⟨?_, fun hanswers => ?_⟩
  · rw [hiff, hiff', hbody]
  · have hgood := hiff.mp hanswers
    obtain ⟨-, hfinal, haccepted, hcount⟩ := postParts_good hauth hdb store hparts hlimits
      ((goodObjects_flatten_iff hparts).mp hgood)
    obtain ⟨-, hfinal', haccepted', hcount'⟩ := postParts_good hauth hdb store hparts' hlimits'
      ((goodObjects_flatten_iff hparts').mp (hbody ▸ hgood))
    rw [hbody] at hfinal haccepted hcount
    have htotal : (sent.1.map (·.accepted)).sum = (sent'.1.map (·.accepted)).sum :=
      haccepted.trans haccepted'.symm
    refine ⟨hfinal.trans hfinal'.symm, htotal, ?_⟩
    have hboth := hcount.trans hcount'.symm
    change (sent.1.map (·.accepted)).sum + (sent.1.map (·.rejected)).sum =
      (sent'.1.map (·.accepted)).sum + (sent'.1.map (·.rejected)).sum at hboth
    omega

/-- The healthy database behind the driver. -/
theorem Database.strict_limited :
    (Database.strict rt).limited.RowByRow fun row => row.InDomain rt where
  execute_iff store rows _ := by
    rw [Database.limited_execute_eq_none, Database.strict_execute_eq_none]
  commit_eq _ _ := rfl

/-- The two lines of a batch in one request and in two. -/
theorem postParts_congr_sample :
    let db := (Database.strict sampleRuntime).limited
    let sent := postParts sampleRuntime {} none db [] [sampleText ++ [10], [91, 93, 10]]
    let sent' := postParts sampleRuntime {} none db [] [mixedRequest.body]
    ((∀ answer ∈ sent.1, answer.status = 200) ↔ ∀ answer ∈ sent'.1, answer.status = 200) ∧
      ((∀ answer ∈ sent.1, answer.status = 200) → sent.2 = sent'.2 ∧
        (sent.1.map (·.accepted)).sum = (sent'.1.map (·.accepted)).sum ∧
        (sent.1.map (·.rejected)).sum = (sent'.1.map (·.rejected)).sum) := by
  have hwithin : ∀ part ∈ [sampleText ++ [10], [91, 93, 10], mixedRequest.body],
      WithinLimits sampleRuntime {} part := by
    simp only [List.forall_mem_cons, List.not_mem_nil, false_implies, implies_true, and_true]
    exact ⟨⟨by decide +kernel, by decide +kernel, by decide +kernel⟩,
      ⟨by decide +kernel, by decide +kernel, by decide +kernel⟩,
      ⟨by decide +kernel, by decide +kernel, by decide +kernel⟩⟩
  refine postParts_congr sampleRuntime {} none _ rfl (Database.strict_limited sampleRuntime) [] _ _
    (by decide +kernel) ⟨.inr (.lf _ _), .inl rfl, trivial⟩ ⟨.inl rfl, trivial⟩ ?_ ?_
  · intro part hpart
    exact hwithin part (List.mem_of_mem_take (i := 2) hpart)
  · intro part hpart
    exact hwithin part (List.mem_of_mem_drop (i := 2) hpart)

end TelemetryApi
