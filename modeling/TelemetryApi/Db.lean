import TelemetryApi.Models

/-!
# Sessions

`session_scope` of `app/db.py`. PostgreSQL is a parameter: it answers each
`INSERT` and each `COMMIT` as it likes, and what it commits becomes durable as
a whole.
-/

namespace TelemetryApi

/-- The outcome of a `COMMIT` as the session sees it. A connection that breaks
off leaves it open whether the transaction was applied. -/
inductive CommitReply where
  | done
  | refused (message : String)
  | unknown (applied : Bool) (message : String)

/-- How the database answers a statement, given the rows it stores. -/
structure Database where
  execute : List OrmRow → List OrmRow → Option String
  commit : List OrmRow → List OrmRow → CommitReply

/-- The database executes the `INSERT` of the rows and commits it. -/
def Database.Takes (db : Database) (store rows : List OrmRow) : Prop :=
  db.execute store rows = none ∧ db.commit store rows = .done

/-- A database that takes every row it is given. -/
def Database.accepting : Database where
  execute _ _ := none
  commit _ _ := .done

/-- The most parameters that asyncpg accepts in one statement. -/
def maxBinds : Nat := 32767

def tooManyBinds : String := "the number of query arguments cannot exceed 32767"

/-- The rows inserted in the open transaction of a session. -/
abbrev Session := List OrmRow

variable (db : Database) (store : List OrmRow)

/-- `session.execute(pg_insert(Event).values(rows))` -/
def Session.execute (session : Session) (rows : List OrmRow) : Except PyExc Unit × Session :=
  match db.execute store rows with
  | some message => (.error (.database message), session)
  | none => (.ok (), session ++ rows)

/-- What a `COMMIT` makes durable, and the error it raises. -/
def CommitReply.outcome {α : Type} (reply : CommitReply) (pending : Session) (a : α) :
    Except PyExc α × List OrmRow :=
  match reply with
  | .done => (.ok a, pending)
  | .refused message => (.error (.database message), [])
  | .unknown applied message => (.error (.database message), if applied then pending else [])

/-- `session_scope` around a handler: commit on success, rollback on raise. The
second component is what has become durable. -/
def sessionScope {α : Type} (handler : Session → Except PyExc α × Session) :
    Except PyExc α × List OrmRow :=
  match handler [] with
  -- the rollback takes back what the handler has inserted
  | (.error e, _) => (.error e, [])
  | (.ok a, pending) => (db.commit store pending).outcome pending a

/-- Only a `COMMIT` that is known to have succeeded lets the outcome through. -/
theorem CommitReply.outcome_eq_ok {α : Type} {reply : CommitReply} {pending : Session} {a b : α}
    (h : (reply.outcome pending a).1 = .ok b) : reply = .done ∧ a = b := by
  cases reply with
  | done => exact ⟨rfl, Except.ok.inj h⟩
  | refused message => cases h
  | unknown applied message => cases h

theorem sessionScope_eq_ok {α : Type} {handler : Session → Except PyExc α × Session} {a : α}
    (h : (sessionScope db store handler).1 = .ok a) :
    ∃ pending, handler [] = (.ok a, pending) ∧
      (sessionScope db store handler).2 = pending := by
  rw [sessionScope] at h ⊢
  rcases hh : handler [] with ⟨e | b, pending⟩
  · simp [hh] at h
  · simp only [hh] at h ⊢
    obtain ⟨hdone, rfl⟩ := CommitReply.outcome_eq_ok h
    exact ⟨pending, rfl, by rw [hdone]; rfl⟩

theorem sessionScope_eq_error {α : Type} {handler : Session → Except PyExc α × Session}
    {e : PyExc} (h : (sessionScope db store handler).1 = .error e) :
    (handler []).1 = .error e ∨ ∃ message, e = .database message := by
  rw [sessionScope] at h
  rcases hh : handler [] with ⟨e' | a, pending⟩
  · simp only [hh] at h
    exact Or.inl h
  · simp only [hh] at h
    cases hr : db.commit store pending with
    | done => simp [hr, CommitReply.outcome] at h
    | refused message =>
      rw [hr] at h
      cases h
      exact Or.inr ⟨message, rfl⟩
    | unknown applied message =>
      rw [hr] at h
      cases h
      exact Or.inr ⟨message, rfl⟩

end TelemetryApi
