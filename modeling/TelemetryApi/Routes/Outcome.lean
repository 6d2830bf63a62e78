import TelemetryApi.Routes.Ingest

/-!
# What one request does

The validation loop in closed form, the batch that `ingest_events` prepares, and
the outcomes of a request.
-/

namespace TelemetryApi

variable (settings : Settings) (rt : Runtime)

/-! ## The validation loop -/

/-- Why an object is left out of the `INSERT`. -/
def rejection (entry : JsonObject × Nat) : Option SoftError :=
  match modelValidate rt entry.1 with
  | .error (.validation errors) => some (.invalidEvent entry.2 (rt.errorsText errors))
  | _ => none

theorem acceptedRow_of_ok {o : JsonObject} {ev : IngestEvent} (h : modelValidate rt o = .ok ev) :
    ∃ row, toOrmRow ev = .ok row ∧ acceptedRow rt o = some row := by
  obtain ⟨kind, level, hrow, -, -⟩ := toOrmRow_eq_ok ev
  exact ⟨_, hrow, (acceptedRow_eq_some rt).mpr ⟨ev, h, hrow⟩⟩

theorem acceptedRow_of_invalid {o : JsonObject} {errors : List LineError}
    (h : modelValidate rt o = .error (.validation errors)) : acceptedRow rt o = none := by
  unfold acceptedRow
  rw [h]

theorem rejection_of_ok {entry : JsonObject × Nat} {ev : IngestEvent}
    (h : modelValidate rt entry.1 = .ok ev) : rejection rt entry = none := by
  unfold rejection
  rw [h]

theorem rejection_of_invalid {entry : JsonObject × Nat} {errors : List LineError}
    (h : modelValidate rt entry.1 = .error (.validation errors)) :
    rejection rt entry = some (.invalidEvent entry.2 (rt.errorsText errors)) := by
  unfold rejection
  rw [h]

/-- An object is inserted or reported, never both. -/
theorem isSome_acceptedRow {entry : JsonObject × Nat} (h : ¬ BadProps entry.1) :
    (acceptedRow rt entry.1).isSome = !(rejection rt entry).isSome := by
  rcases modelValidate_of_not_badProps rt h with ⟨ev, hev⟩ | ⟨errors, herr⟩
  · obtain ⟨row, -, hacc⟩ := acceptedRow_of_ok rt hev
    rw [hacc, rejection_of_ok rt hev]
    rfl
  · rw [acceptedRow_of_invalid rt herr, rejection_of_invalid rt herr]
    rfl

theorem not_badProps_of_isSome {o : JsonObject} (h : (acceptedRow rt o).isSome) : ¬ BadProps o := by
  intro hbad
  obtain ⟨row, hrow⟩ := Option.isSome_iff_exists.mp h
  obtain ⟨ev, hev, -⟩ := (acceptedRow_eq_some rt).mp hrow
  rw [modelValidate_of_badProps rt hbad] at hev
  cases hev

theorem validateStep_of_badProps (acc : List OrmRow × List SoftError) {entry : JsonObject × Nat}
    (h : BadProps entry.1) :
    validateStep rt acc entry = .error (.typeError "props must be an object") := by
  unfold validateStep
  rw [modelValidate_of_badProps rt h]

theorem validateStep_of_not_badProps (acc : List OrmRow × List SoftError)
    {entry : JsonObject × Nat} (h : ¬ BadProps entry.1) :
    validateStep rt acc entry =
      .ok (acc.1 ++ (acceptedRow rt entry.1).toList, acc.2 ++ (rejection rt entry).toList) := by
  rcases modelValidate_of_not_badProps rt h with ⟨ev, hev⟩ | ⟨errors, herr⟩
  · obtain ⟨row, hrow, hacc⟩ := acceptedRow_of_ok rt hev
    rw [hacc, rejection_of_ok rt hev]
    unfold validateStep
    simp only [hev, hrow]
    simp
  · rw [acceptedRow_of_invalid rt herr, rejection_of_invalid rt herr]
    unfold validateStep
    simp only [herr]
    simp

/-- The loop keeps the accepted rows and the rejections in body order. -/
theorem foldlM_validateStep (entries : List (JsonObject × Nat))
    (acc : List OrmRow × List SoftError) (h : ∀ e ∈ entries, ¬ BadProps e.1) :
    entries.foldlM (validateStep rt) acc =
      .ok (acc.1 ++ entries.filterMap (fun e => acceptedRow rt e.1),
        acc.2 ++ entries.filterMap (rejection rt)) := by
  induction entries generalizing acc with
  | nil => simp [pure, Except.pure]
  | cons e entries ih =>
    rw [List.foldlM_cons, validateStep_of_not_badProps rt acc (h e List.mem_cons_self)]
    have hrest := ih (acc.1 ++ (acceptedRow rt e.1).toList, acc.2 ++ (rejection rt e).toList)
      fun e he => h e (List.mem_cons_of_mem _ he)
    apply hrest.trans
    -- an entry extends one of the two lists, or none
    cases hrow : acceptedRow rt e.1 <;> cases hrej : rejection rt e <;> simp [hrow, hrej]

/-- One object with malformed `props` ends the loop. -/
theorem foldlM_validateStep_badProps (entries : List (JsonObject × Nat))
    (acc : List OrmRow × List SoftError) (h : ∃ e ∈ entries, BadProps e.1) :
    entries.foldlM (validateStep rt) acc = .error (.typeError "props must be an object") := by
  induction entries generalizing acc with
  | nil => simp at h
  | cons e entries ih =>
    rw [List.foldlM_cons]
    by_cases he : BadProps e.1
    · rw [validateStep_of_badProps rt acc he]
      rfl
    · rw [validateStep_of_not_badProps rt acc he]
      apply ih
      simpa [he] using h

theorem filterMap_zipIdx_acceptedRow (objects : List JsonObject) :
    (objects.zipIdx 1).filterMap (fun e => acceptedRow rt e.1) =
      objects.filterMap (acceptedRow rt) := by
  conv_rhs => rw [← List.zipIdx_map_fst 1 objects, List.filterMap_map]
  rfl

theorem validateAll_of_not_badProps {parsed : Parsed}
    (h : ∀ o ∈ parsed.rawObjects, ¬ BadProps o) :
    validateAll rt parsed =
      .ok (parsed.rawObjects.filterMap (acceptedRow rt),
        parsed.parseErrors ++ (parsed.rawObjects.zipIdx 1).filterMap (rejection rt)) := by
  have hentries : ∀ e ∈ parsed.rawObjects.zipIdx 1, ¬ BadProps e.1 := by
    intro e he
    exact h e.1 (List.fst_mem_of_mem_zipIdx he)
  rw [validateAll, foldlM_validateStep rt _ _ hentries, filterMap_zipIdx_acceptedRow,
    List.nil_append]

theorem validateAll_of_badProps {parsed : Parsed} (h : ∃ o ∈ parsed.rawObjects, BadProps o) :
    validateAll rt parsed = .error (.typeError "props must be an object") := by
  obtain ⟨o, ho, hbad⟩ := h
  rw [← List.zipIdx_map_fst 1 parsed.rawObjects] at ho
  obtain ⟨entry, hentry, rfl⟩ := List.mem_map.mp ho
  exact foldlM_validateStep_badProps rt _ _ ⟨entry, hentry, hbad⟩

/-! ## The batch -/

theorem prepareBatch_eq (req : Request) :
    prepareBatch settings rt req =
      if settings.maxBodyBytes < req.body.length then
        .error (.http (bodyTooLarge req.body.length settings.maxBodyBytes))
      else match parseBody rt req with
        | .error e => .error e
        | .ok parsed =>
          if settings.maxEventsPerRequest < parsed.rawObjects.length then
            .error (.http (tooManyEvents parsed.rawObjects.length settings.maxEventsPerRequest))
          else match validateAll rt parsed with
            | .error e => .error e
            | .ok (rows, errors) => .ok ⟨parsed, rows, errors⟩ := by
  rw [prepareBatch]
  split_ifs with hbody
  · rfl
  · cases hp : parseBody rt req with
    | error e => rfl
    | ok parsed =>
      simp only
      split_ifs with hcap
      · show (if _ then _ else _) = _
        rw [if_pos hcap]
        rfl
      · cases hv : validateAll rt parsed with
        | error e =>
          show (if _ then _ else _) = _
          rw [if_neg hcap, hv]
          rfl
        | ok out =>
          show (if _ then _ else _) = _
          rw [if_neg hcap, hv]
          rfl

/-- A batch comes out of the handler exactly when the request keeps both limits,
its body parses and no object has malformed `props`; its rows are those of the
accepted objects, in body order. -/
theorem prepareBatch_eq_ok_iff {req : Request} {b : Batch} :
    prepareBatch settings rt req = .ok b ↔
      req.body.length ≤ settings.maxBodyBytes ∧ parseBody rt req = .ok b.parsed ∧
      b.parsed.rawObjects.length ≤ settings.maxEventsPerRequest ∧
      (∀ o ∈ b.parsed.rawObjects, ¬ BadProps o) ∧
      b.rows = b.parsed.rawObjects.filterMap (acceptedRow rt) ∧
      b.errors = b.parsed.parseErrors ++
        (b.parsed.rawObjects.zipIdx 1).filterMap (rejection rt) := by
  obtain ⟨parsed, rows, errors⟩ := b
  rw [prepareBatch_eq]
  split_ifs with hbody
  · simp only [false_iff]
    rintro ⟨hle, -⟩
    omega
  · cases hparse : parseBody rt req with
    | error e => simp
    | ok parsed' =>
      simp only
      split_ifs with hcap
      · simp only [false_iff, Except.ok.injEq]
        rintro ⟨-, rfl, hle, -⟩
        omega
      · by_cases hbad : ∀ o ∈ parsed'.rawObjects, ¬ BadProps o
        · rw [validateAll_of_not_badProps rt hbad]
          simp only [Except.ok.injEq, Batch.mk.injEq]
          constructor
          · rintro ⟨rfl, rfl, rfl⟩
            exact ⟨by omega, rfl, by omega, hbad, rfl, rfl⟩
          · rintro ⟨-, rfl, -, -, rfl, rfl⟩
            exact ⟨rfl, rfl, rfl⟩
        · have hex : ∃ o ∈ parsed'.rawObjects, BadProps o := by
            push Not at hbad
            exact hbad
          rw [validateAll_of_badProps rt hex]
          simp only [reduceCtorEq, false_iff, Except.ok.injEq]
          rintro ⟨-, rfl, -, hgood, -⟩
          exact hbad hgood

theorem parseJson_eq_error {raw : Bytes} {e : PyExc} (h : parseJson rt raw = .error e) :
    ∃ text, e = .http ⟨422, text, []⟩ := by
  rw [parseJson] at h
  split at h
  · cases h
    exact ⟨_, rfl⟩
  · cases h
  · cases h
  · cases h
  · cases h
    exact ⟨_, rfl⟩

/-- Only the JSON parser refuses a body. -/
theorem parseBody_eq_error {req : Request} {e : PyExc} (h : parseBody rt req = .error e) :
    ∃ text, e = .http ⟨422, text, []⟩ := by
  rw [parseBody] at h
  split_ifs at h
  exact parseJson_eq_error rt h

theorem validateAll_eq_error {parsed : Parsed} {e : PyExc} (h : validateAll rt parsed = .error e) :
    e = .typeError "props must be an object" := by
  by_cases hbad : ∃ o ∈ parsed.rawObjects, BadProps o
  · rw [validateAll_of_badProps rt hbad] at h
    exact (Except.error.inj h).symm
  · push Not at hbad
    rw [validateAll_of_not_badProps rt hbad] at h
    cases h

/-- The handler refuses a request with 413 or 422, or breaks off with the
`TypeError` of `coerce_props`. -/
theorem prepareBatch_eq_error {req : Request} {e : PyExc}
    (h : prepareBatch settings rt req = .error e) :
    (∃ status text, e = .http ⟨status, text, []⟩ ∧ (status = 413 ∨ status = 422)) ∨
      e = .typeError "props must be an object" := by
  rw [prepareBatch_eq] at h
  split_ifs at h
  · cases h
    exact Or.inl ⟨413, _, rfl, Or.inl rfl⟩
  · cases hparse : parseBody rt req with
    | error e' =>
      simp only [hparse] at h
      cases h
      obtain ⟨text, rfl⟩ := parseBody_eq_error rt hparse
      exact Or.inl ⟨422, text, rfl, Or.inr rfl⟩
    | ok parsed =>
      simp only [hparse] at h
      split_ifs at h
      · cases h
        exact Or.inl ⟨413, _, rfl, Or.inl rfl⟩
      · cases hv : validateAll rt parsed with
        | error e' =>
          simp only [hv] at h
          cases h
          exact Or.inr (validateAll_eq_error rt hv)
        | ok out =>
          simp only [hv] at h
          cases h

theorem prepareBatch_of_badProps {req : Request} {parsed : Parsed}
    (hbody : req.body.length ≤ settings.maxBodyBytes) (hparse : parseBody rt req = .ok parsed)
    (hcap : parsed.rawObjects.length ≤ settings.maxEventsPerRequest)
    (hbad : ∃ o ∈ parsed.rawObjects, BadProps o) :
    prepareBatch settings rt req = .error (.typeError "props must be an object") := by
  rw [prepareBatch_eq, if_neg (by omega), hparse]
  simp only
  rw [if_neg (by omega), validateAll_of_badProps rt hbad]

/-! ## The answer -/

variable (db : Database) (store : List OrmRow)

/-- What an exception of the route can be: no `HTTPException` with status 200. -/
theorem ingestEvents_eq_error {req : Request} {session : Session} {e : PyExc}
    (h : (ingestEvents settings rt db store req session).1 = .error e) :
    prepareBatch settings rt req = .error e ∨ ∃ message, e = .database message := by
  rw [ingestEvents] at h
  cases hb : prepareBatch settings rt req with
  | error e' =>
    simp only [hb] at h
    obtain rfl := Except.error.inj h
    exact Or.inl rfl
  | ok b =>
    simp only [hb] at h
    split_ifs at h
    rw [Session.execute] at h
    cases hx : db.execute store b.rows with
    | none => simp [hx] at h
    | some message =>
      simp only [hx] at h
      exact Or.inr ⟨message, (Except.error.inj h).symm⟩

theorem ingestEvents_eq_ok {req : Request} {r : IngestResponse} {pending : Session}
    (h : ingestEvents settings rt db store req [] = (.ok r, pending)) :
    ∃ b, prepareBatch settings rt req = .ok b ∧ r = b.response ∧ pending = b.rows := by
  rw [ingestEvents] at h
  cases hb : prepareBatch settings rt req with
  | error e' => simp [hb] at h
  | ok b =>
    refine ⟨b, rfl, ?_⟩
    simp only [hb] at h
    split_ifs at h with hrows
    · cases h
      exact ⟨rfl, hrows.symm⟩
    · rw [Session.execute] at h
      cases hx : db.execute store b.rows with
      | some message => simp [hx] at h
      | none =>
        simp only [hx, List.nil_append] at h
        cases h
        exact ⟨rfl, rfl⟩

/-- An answer with status 200 reports a prepared batch, all of whose rows have
become durable. -/
theorem postEvents_of_status {req : Request}
    (h : (postEvents settings rt db store req).1.status = 200) :
    settings.requireIngestToken req.authorization = .ok () ∧
      ∃ b, prepareBatch settings rt req = .ok b ∧
        postEvents settings rt db store req = (answerOf (.ok b.response), b.rows) := by
  rw [postEvents] at h ⊢
  cases hauth : settings.requireIngestToken req.authorization with
  | error e =>
    simp only [hauth] at h
    rcases settings.requireIngestToken_eq_error hauth with rfl | rfl | rfl <;> cases h
  | ok u =>
    simp only [hauth] at h ⊢
    refine ⟨trivial, ?_⟩
    cases hout : (sessionScope db store (ingestEvents settings rt db store req)).1 with
    | error e =>
      rw [hout] at h
      rcases sessionScope_eq_error db store hout with hhandler | ⟨message, rfl⟩
      · rcases ingestEvents_eq_error settings rt db store hhandler with hprep | ⟨message, rfl⟩
        · rcases prepareBatch_eq_error settings rt hprep with
            ⟨status, text, rfl, rfl | rfl⟩ | rfl <;> cases h
        · cases h
      · cases h
    | ok r =>
      -- the handler returned and the commit succeeded
      obtain ⟨pending, hhandler, hdurable⟩ := sessionScope_eq_ok db store hout
      obtain ⟨b, hb, rfl, rfl⟩ := ingestEvents_eq_ok settings rt db store hhandler
      exact ⟨b, hb, by rw [hdurable]⟩

/-- A batch without rows needs no statement; any other is stored where the database
executes it and commits. -/
theorem postEvents_of_executes {req : Request} {b : Batch}
    (hauth : settings.requireIngestToken req.authorization = .ok ())
    (hb : prepareBatch settings rt req = .ok b)
    (hexecute : b.rows ≠ [] → db.execute store b.rows = none)
    (hcommit : db.commit store b.rows = .done) :
    postEvents settings rt db store req = (answerOf (.ok b.response), b.rows) := by
  rw [postEvents, sessionScope, ingestEvents]
  simp only [hauth, hb]
  split_ifs with hrows
  · rw [hrows] at hcommit ⊢
    simp only [hcommit]
    rfl
  · simp only [Session.execute, hexecute hrows, List.nil_append, hcommit]
    rfl

/-- A batch that the database takes is stored. -/
theorem postEvents_of_takes {req : Request} {b : Batch}
    (hauth : settings.requireIngestToken req.authorization = .ok ())
    (hb : prepareBatch settings rt req = .ok b) (htakes : db.Takes store b.rows) :
    postEvents settings rt db store req = (answerOf (.ok b.response), b.rows) :=
  postEvents_of_executes settings rt db store hauth hb (fun _ => htakes.1) htakes.2

/-- A batch that the database refuses ends in a 500 and is not stored. -/
theorem postEvents_of_refused {req : Request} {b : Batch}
    (hauth : settings.requireIngestToken req.authorization = .ok ())
    (hb : prepareBatch settings rt req = .ok b) (hrows : b.rows ≠ [])
    (hrefused : db.execute store b.rows ≠ none) :
    postEvents settings rt db store req = (⟨500, .serverError, []⟩, []) := by
  obtain ⟨message, hmessage⟩ := Option.ne_none_iff_exists'.mp hrefused
  rw [postEvents, sessionScope, ingestEvents]
  simp only [hauth, hb, if_neg hrows, Session.execute, hmessage]
  rfl

theorem postEvents_accepting {req : Request} {b : Batch}
    (hauth : settings.requireIngestToken req.authorization = .ok ())
    (hb : prepareBatch settings rt req = .ok b) :
    postEvents settings rt .accepting store req = (answerOf (.ok b.response), b.rows) :=
  postEvents_of_takes settings rt .accepting store hauth hb ⟨rfl, rfl⟩

/-- A request whose handler breaks off stores nothing. -/
theorem postEvents_of_error {req : Request} {e : PyExc}
    (hauth : settings.requireIngestToken req.authorization = .ok ())
    (hb : prepareBatch settings rt req = .error e) :
    postEvents settings rt db store req = (answerOf (.error e), []) := by
  rw [postEvents, sessionScope, ingestEvents]
  simp only [hauth, hb]

end TelemetryApi
