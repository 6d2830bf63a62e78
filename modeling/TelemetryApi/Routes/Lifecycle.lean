import TelemetryApi.Foundations.Tasks
import TelemetryApi.Routes.Outcome

/-!
# The life of a request

`POST /v1/events` step by step, in the order of `ingest_events` and
`session_scope`, with every point at which it can fail. Requests interleave: a
server is a set of tasks that share the table.
-/

namespace TelemetryApi

/-- How far a request has come. -/
inductive Stage where
  /-- The dependencies and the handler have not begun. -/
  | received
  /-- The batch is validated and the `INSERT` has not been executed. -/
  | prepared (b : Batch)
  /-- The handler has returned and the transaction is open. -/
  | executed (b : Batch)
  /-- `session_scope` has been left; the answer is not sent. -/
  | closed (outcome : Except PyExc IngestResponse)
  /-- The answer is on its way. -/
  | answered (a : Answer)
  | gone

variable (settings : Settings) (rt : Runtime)

/-- One step of a request, with the rows that it makes durable. -/
inductive RequestStep (req : Request) : Stage → Option (List OrmRow) → Stage → Prop
  | refuse {e} (h : settings.requireIngestToken req.authorization = .error e) :
      RequestStep req .received none (.closed (.error e))
  | reject {e} (hauth : settings.requireIngestToken req.authorization = .ok ())
      (h : prepareBatch settings rt req = .error e) :
      RequestStep req .received none (.closed (.error e))
  | prepare {b} (hauth : settings.requireIngestToken req.authorization = .ok ())
      (h : prepareBatch settings rt req = .ok b) :
      RequestStep req .received none (.prepared b)
  /-- Reading the body or opening the session fails. -/
  | fail (message : String) :
      RequestStep req .received none (.closed (.error (.database message)))
  /-- The `INSERT` succeeds, or is left out for a batch without rows. -/
  | execute (b : Batch) : RequestStep req (.prepared b) none (.executed b)
  | executeFails (b : Batch) (message : String) :
      RequestStep req (.prepared b) none (.closed (.error (.database message)))
  | commit (b : Batch) : RequestStep req (.executed b) (some b.rows) (.closed (.ok b.response))
  | commitRefused (b : Batch) (message : String) :
      RequestStep req (.executed b) none (.closed (.error (.database message)))
  /-- The connection breaks off during `COMMIT`, and the transaction was applied. -/
  | commitUnseen (b : Batch) (message : String) :
      RequestStep req (.executed b) (some b.rows) (.closed (.error (.database message)))
  | answer (outcome : Except PyExc IngestResponse) :
      RequestStep req (.closed outcome) none (.answered (answerOf outcome))
  /-- The task is cancelled, its process crashes, or the answer is lost. -/
  | vanish (s : Stage) : RequestStep req s none .gone
  /-- The same during `COMMIT`, where the transaction was applied. -/
  | vanishCommitted (b : Batch) : RequestStep req (.executed b) (some b.rows) .gone

abbrev Server := Tasks Request Stage (List OrmRow)

/-- Requests arrive and are served in any interleaving. -/
abbrev Server.Step : Server → Server → Prop := Tasks.Step (RequestStep settings rt) .received

/-- The rows of the table, in the order of their commits. -/
def Server.store (s : Server) : List OrmRow := s.log.flatMap (·.2)

/-! ## What a request keeps -/

/-- The request passed the token check and its handler prepared the batch. -/
def Prepares (req : Request) (b : Batch) : Prop :=
  settings.requireIngestToken req.authorization = .ok () ∧ prepareBatch settings rt req = .ok b

/-- All rows of the batch of the request are durable, in one transaction, or
none is. -/
def AllOrNone (req : Request) (durable : List (List OrmRow)) : Prop :=
  durable = [] ∨ ∃ b, Prepares settings rt req b ∧ durable = [b.rows]

/-- An exception that the route can raise on the request. -/
def Raises (req : Request) (e : PyExc) : Prop :=
  settings.requireIngestToken req.authorization = .error e ∨
    prepareBatch settings rt req = .error e ∨ ∃ message, e = .database message

/-- An outcome of `session_scope` with what is durable behind it: a response
comes with the rows of its batch. -/
def Accounted (req : Request) (durable : List (List OrmRow)) :
    Except PyExc IngestResponse → Prop
  | .ok r => ∃ b, Prepares settings rt req b ∧ r = b.response ∧ durable = [b.rows]
  | .error e => Raises settings rt req e ∧ AllOrNone settings rt req durable

def Request.Keeps (req : Request) : Stage → List (List OrmRow) → Prop
  | .received, durable => durable = []
  | .prepared b, durable | .executed b, durable => Prepares settings rt req b ∧ durable = []
  | .closed outcome, durable => Accounted settings rt req durable outcome
  | .answered a, durable =>
    ∃ outcome, a = answerOf outcome ∧ Accounted settings rt req durable outcome
  | .gone, durable => AllOrNone settings rt req durable

variable {settings rt}

theorem Accounted.allOrNone {req : Request} {durable : List (List OrmRow)}
    {outcome : Except PyExc IngestResponse} (h : Accounted settings rt req durable outcome) :
    AllOrNone settings rt req durable := by
  cases outcome with
  | ok r =>
    obtain ⟨b, hb, -, hd⟩ := h
    exact Or.inr ⟨b, hb, hd⟩
  | error e => exact h.2

theorem Request.Keeps.allOrNone {req : Request} {s : Stage} {durable : List (List OrmRow)}
    (h : req.Keeps settings rt s durable) : AllOrNone settings rt req durable := by
  cases s with
  | received => exact Or.inl h
  | prepared b => exact Or.inl h.2
  | executed b => exact Or.inl h.2
  | closed outcome => exact Accounted.allOrNone h
  | answered a =>
    obtain ⟨outcome, -, hacc⟩ := h
    exact hacc.allOrNone
  | gone => exact h

/-- Each step of a request keeps the account of its rows. -/
theorem Request.Keeps.step {req : Request} {s s' : Stage} {durable : List (List OrmRow)}
    {out : Option (List OrmRow)} (h : req.Keeps settings rt s durable)
    (hstep : RequestStep settings rt req s out s') :
    req.Keeps settings rt s' (durable ++ out.toList) := by
  cases hstep with
  | refuse he =>
    obtain rfl : durable = [] := h
    exact ⟨Or.inl he, Or.inl rfl⟩
  | reject hauth he =>
    obtain rfl : durable = [] := h
    exact ⟨Or.inr (Or.inl he), Or.inl rfl⟩
  | prepare hauth hb =>
    obtain rfl : durable = [] := h
    exact ⟨⟨hauth, hb⟩, rfl⟩
  | fail message =>
    obtain rfl : durable = [] := h
    exact ⟨Or.inr (Or.inr ⟨message, rfl⟩), Or.inl rfl⟩
  | execute b =>
    obtain ⟨hb, rfl⟩ := h
    exact ⟨hb, rfl⟩
  | executeFails b message =>
    obtain ⟨hb, rfl⟩ := h
    exact ⟨Or.inr (Or.inr ⟨message, rfl⟩), Or.inl rfl⟩
  | commit b =>
    obtain ⟨hb, rfl⟩ := h
    exact ⟨b, hb, rfl, rfl⟩
  | commitRefused b message =>
    obtain ⟨hb, rfl⟩ := h
    exact ⟨Or.inr (Or.inr ⟨message, rfl⟩), Or.inl rfl⟩
  | commitUnseen b message =>
    obtain ⟨hb, rfl⟩ := h
    exact ⟨Or.inr (Or.inr ⟨message, rfl⟩), Or.inr ⟨b, hb, rfl⟩⟩
  | answer outcome =>
    have hacc : Accounted settings rt req durable outcome := h
    exact ⟨outcome, rfl, by simpa using hacc⟩
  | vanish =>
    simpa [Request.Keeps] using h.allOrNone
  | vanishCommitted b =>
    obtain ⟨hb, rfl⟩ := h
    exact Or.inr ⟨b, hb, rfl⟩

/-- In every interleaving, every request keeps the account of its rows. -/
theorem Server.each_keeps {s : Server}
    (h : Relation.ReflTransGen (Server.Step settings rt) (Tasks.empty .received) s) :
    s.Each fun req => req.Keeps settings rt :=
  Tasks.Each.of_reachable (P := fun req => req.Keeps settings rt) (fun _ => rfl)
    (fun _ _ _ _ _ hkeeps hstep => Request.Keeps.step hkeeps hstep) h

/-! ## One request without interleaving -/

variable (settings rt)

/-- The steps of one request on its own, with the transactions they apply. -/
abbrev RequestRun (req : Request) : Stage → List (List OrmRow) → Stage → Prop :=
  Tasks.LocalRun (RequestStep settings rt req)

variable {settings rt}

theorem RequestRun.cons {req : Request} {s s' s'' : Stage} {out : Option (List OrmRow)}
    {es : List (List OrmRow)} (h : RequestStep settings rt req s out s')
    (hrun : RequestRun settings rt req s' es s'') :
    RequestRun settings rt req s (out.toList ++ es) s'' := .step h hrun

theorem RequestRun.closed (req : Request) (outcome : Except PyExc IngestResponse) :
    RequestRun settings rt req (.closed outcome) [] (.answered (answerOf outcome)) :=
  .cons (.answer outcome) (.refl _)

variable (settings rt) in
/-- From the open transaction on, the run follows the reply to `COMMIT`. -/
theorem RequestRun.executed (req : Request) (b : Batch) (reply : CommitReply) :
    ∃ es, RequestRun settings rt req (.executed b) es
        (.answered (answerOf (reply.outcome b.rows b.response).1)) ∧
      es.flatten = (reply.outcome b.rows b.response).2 := by
  cases reply with
  | done => exact ⟨_, .cons (.commit b) (RequestRun.closed req _),
      by simp [CommitReply.outcome]⟩
  | refused message =>
    exact ⟨_, .cons (.commitRefused b message) (RequestRun.closed req _), rfl⟩
  | unknown applied message =>
    cases applied
    · exact ⟨_, .cons (.commitRefused b message) (RequestRun.closed req _), rfl⟩
    · exact ⟨_, .cons (.commitUnseen b message) (RequestRun.closed req _),
        by simp [CommitReply.outcome]⟩

/-- The handler in one piece is a run of the steps: `postEvents` sends an answer
that the steps can reach, and makes durable what they do. -/
theorem requestRun_postEvents (db : Database) (store : List OrmRow) (req : Request) :
    ∃ es, RequestRun settings rt req .received es
        (.answered (postEvents settings rt db store req).1) ∧
      es.flatten = (postEvents settings rt db store req).2 := by
  rw [postEvents]
  cases hauth : settings.requireIngestToken req.authorization with
  | error e => exact ⟨_, .cons (.refuse hauth) (RequestRun.closed req _), rfl⟩
  | ok u =>
    simp only [sessionScope, ingestEvents]
    cases hb : prepareBatch settings rt req with
    | error e => exact ⟨_, .cons (.reject hauth hb) (RequestRun.closed req _), rfl⟩
    | ok b =>
      by_cases hrows : b.rows = []
      · obtain ⟨es, hrun, hes⟩ := RequestRun.executed settings rt req b (db.commit store [])
        rw [hrows] at hrun hes
        simp only [hrows, if_true]
        exact ⟨_, .cons (.prepare hauth hb) (.cons (.execute b) hrun), hes⟩
      · simp only [hrows, if_false, Session.execute]
        cases hx : db.execute store b.rows with
        | none =>
          obtain ⟨es, hrun, hes⟩ := RequestRun.executed settings rt req b (db.commit store b.rows)
          exact ⟨_, .cons (.prepare hauth hb) (.cons (.execute b) hrun), hes⟩
        | some message =>
          exact ⟨_, .cons (.prepare hauth hb)
            (.cons (.executeFails b message) (RequestRun.closed req _)), rfl⟩

/-- A prepared batch can be served to its end. -/
theorem RequestRun.serve {req : Request} {b : Batch} (hb : Prepares settings rt req b) :
    RequestRun settings rt req .received [b.rows] (.answered (answerOf (.ok b.response))) :=
  .cons (.prepare hb.1 hb.2) (.cons (.execute b) (.cons (.commit b)
    (RequestRun.closed req _)))

end TelemetryApi
