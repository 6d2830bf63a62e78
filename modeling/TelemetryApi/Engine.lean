import TelemetryApi.Config
import TelemetryApi.Foundations.Runs

/-!
# The engine of the process

`init_engine`, `dispose_engine` and `session_scope` of `app/db.py` over the two globals
of the module. Coroutines take turns at their awaits, and the only await here is that of
a disposal.
-/

namespace TelemetryApi

/-- The object that `create_async_engine` returns; `serial` tells such objects apart. -/
structure AsyncEngine where
  serial : Nat
  dsn : String
  deriving DecidableEq

structure SessionFactory where
  bind : AsyncEngine
  deriving DecidableEq

/-- `_engine` and `_session_factory`, the disposals that are suspended with the engines
they dispose of, and the number of engines created. -/
structure DbModule where
  engine : Option AsyncEngine
  sessionFactory : Option SessionFactory
  disposals : List AsyncEngine
  created : Nat

namespace DbModule

variable (m : DbModule)

/-- `init_engine`, where SQLAlchemy takes the DSN. -/
def initEngine (settings : Settings) : DbModule :=
  match m.engine with
  | some _ => m
  | none =>
    let engine : AsyncEngine := ⟨m.created, settings.resolvedDatabaseUrl⟩
    { m with engine := some engine, sessionFactory := some ⟨engine⟩, created := m.created + 1 }

/-- Both globals are set to `None`. -/
def clear : DbModule := { m with engine := none, sessionFactory := none }

/-- `dispose_engine` up to its await, or to its end where there is no engine. -/
def disposeEngine : DbModule :=
  match m.engine with
  | some engine => { m with disposals := m.disposals ++ [engine] }
  | none => m.clear

/-- One of the suspended disposals leaves the await. -/
def leaveAwait (i : Nat) : DbModule := { m with disposals := m.disposals.eraseIdx i }

/-- The engine of the sessions that `session_scope` opens. -/
def sessionScope : Except String AsyncEngine :=
  match m.sessionFactory with
  | some factory => .ok factory.bind
  | none => .error "DB engine not initialised; call init_engine() first."

end DbModule

/-! ## Calls -/

inductive EngineEvent where
  | initEngine (settings : Settings)
  /-- `create_async_engine` raises. -/
  | initRaised (settings : Settings)
  | disposeEngine
  /-- The await of a disposal returns. -/
  | disposed (i : Nat)
  /-- The await of a disposal raises. -/
  | disposeRaised (i : Nat)

/-- The globals, and the settings of the first `init_engine` that has returned since the
last call of `dispose_engine`. -/
structure EngineHistory where
  module : DbModule
  promised : Option Settings

/-- What a call does, or what comes behind an await. -/
def EngineHistory.next (h : EngineHistory) : EngineEvent → EngineHistory
  | .initEngine settings => ⟨h.module.initEngine settings, h.promised <|> some settings⟩
  | .initRaised _ => h
  | .disposeEngine => ⟨h.module.disposeEngine, none⟩
  | .disposed i => ⟨(h.module.leaveAwait i).clear, h.promised⟩
  | .disposeRaised i => ⟨h.module.leaveAwait i, h.promised⟩

/-- An engine is created only where there is none, and the disposal is a suspended one. -/
def EngineHistory.Enabled (h : EngineHistory) : EngineEvent → Prop
  | .initRaised _ => h.module.engine = none
  | .disposed i | .disposeRaised i => i < h.module.disposals.length
  | .initEngine _ | .disposeEngine => True

structure EngineStep (h : EngineHistory) (e : EngineEvent) (h' : EngineHistory) : Prop where
  enabled : h.Enabled e
  next : h' = h.next e

/-- Nothing has been called. -/
def EngineHistory.start : EngineHistory := ⟨⟨none, none, [], 0⟩, none⟩

/-- The globals are both set or both unset, and the factory is bound to the engine. -/
def DbModule.Paired (m : DbModule) : Prop := m.engine = m.sessionFactory.map (·.bind)

/-- Sessions go to the DSN of the settings that were promised. -/
def EngineHistory.Promised (h : EngineHistory) : Prop :=
  ∀ settings ∈ h.promised, ∃ engine, h.module.sessionScope = .ok engine ∧
    engine.dsn = settings.resolvedDatabaseUrl

structure EngineLaw (h : EngineHistory) : Prop where
  paired : h.module.Paired
  promised : h.Promised

/-- The first `init_engine` since a disposal was called finds no engine or one of its own
DSN, and behind such an `init_engine` no disposal returns. -/
def Undisturbed (h : EngineHistory) (e : EngineEvent) (_ : EngineHistory) : Prop :=
  match e with
  | .initEngine settings =>
    h.promised = none → ∀ engine ∈ h.module.engine, engine.dsn = settings.resolvedDatabaseUrl
  | .disposed _ => h.promised = none
  | .initRaised _ | .disposeEngine | .disposeRaised _ => True

theorem DbModule.Paired.sessionScope_eq_ok {m : DbModule} (h : m.Paired) {engine : AsyncEngine} :
    m.sessionScope = .ok engine ↔ m.engine = some engine := by
  rw [DbModule.Paired] at h
  rw [h, DbModule.sessionScope]
  cases m.sessionFactory with
  | none => simp
  | some factory => simp

theorem DbModule.Paired.initEngine {m : DbModule} (h : m.Paired) (settings : Settings) :
    (m.initEngine settings).Paired := by
  rw [DbModule.initEngine]
  split
  · exact h
  · rfl

theorem DbModule.Paired.disposeEngine {m : DbModule} (h : m.Paired) : m.disposeEngine.Paired := by
  rw [DbModule.disposeEngine]
  split
  · exact h
  · rfl

/-- Whatever is called, the two globals stay a pair. -/
theorem EngineStep.paired {h h' : EngineHistory} {e : EngineEvent} (hpaired : h.module.Paired)
    (hstep : EngineStep h e h') : h'.module.Paired := by
  obtain ⟨-, rfl⟩ := hstep
  cases e with
  | initEngine settings => exact hpaired.initEngine settings
  | initRaised settings => exact hpaired
  | disposeEngine => exact hpaired.disposeEngine
  | disposed i => rfl
  | disposeRaised i => exact hpaired

/-- The engine behind `init_engine`. -/
theorem engine_initEngine (m : DbModule) (settings : Settings) :
    ∃ engine, (m.initEngine settings).engine = some engine ∧
      (m.engine = none → engine.dsn = settings.resolvedDatabaseUrl) ∧
      ∀ old ∈ m.engine, engine = old := by
  rw [DbModule.initEngine]
  cases hengine : m.engine with
  | some old => exact ⟨old, hengine, by simp, by simp⟩
  | none => exact ⟨_, rfl, fun _ => rfl, by simp⟩

theorem EngineHistory.promised_iff {h : EngineHistory} (hpaired : h.module.Paired) :
    h.Promised ↔ ∀ settings ∈ h.promised, ∃ engine, h.module.engine = some engine ∧
      engine.dsn = settings.resolvedDatabaseUrl := by
  simp only [EngineHistory.Promised, hpaired.sessionScope_eq_ok]

/-- A step keeps the promise exactly when it is undisturbed. -/
theorem EngineStep.promised_iff {h h' : EngineHistory} {e : EngineEvent} (hlaw : EngineLaw h)
    (hstep : EngineStep h e h') : h'.Promised ↔ Undisturbed h e h' := by
  have hold := (EngineHistory.promised_iff hlaw.paired).mp hlaw.promised
  rw [EngineHistory.promised_iff (hstep.paired hlaw.paired)]
  obtain ⟨-, rfl⟩ := hstep
  cases e with
  | initEngine settings =>
    obtain ⟨engine, hengine, hnew, hkept⟩ := engine_initEngine h.module settings
    simp only [Undisturbed, EngineHistory.next, hengine]
    cases hpromised : h.promised with
    | some earlier =>
      -- the engine of the earlier call is still there
      obtain ⟨old, hsome, hdsn⟩ := hold earlier hpromised
      obtain rfl := hkept old hsome
      simpa using hdsn
    | none =>
      cases hbefore : h.module.engine with
      | none => simpa using hnew hbefore
      | some old =>
        obtain rfl := hkept old hbefore
        simp
  | initRaised settings => exact iff_of_true hold trivial
  | disposeEngine => simp [Undisturbed, EngineHistory.next]
  | disposed i =>
    simp [Undisturbed, EngineHistory.next, DbModule.clear, Option.eq_none_iff_forall_ne_some]
  | disposeRaised i => exact iff_of_true hold trivial

theorem EngineLaw.start : EngineLaw .start where
  paired := rfl
  promised settings hsettings := by cases hsettings

theorem EngineLaw.step {h h' : EngineHistory} {e : EngineEvent} (hlaw : EngineLaw h)
    (hstep : EngineStep h e h') (hcond : Undisturbed h e h') : EngineLaw h' :=
  ⟨hstep.paired hlaw.paired, (hstep.promised_iff hlaw).mpr hcond⟩

/-- In every run the globals stay a pair, and sessions go where the last `init_engine`
promised exactly when no such call is disturbed by a disposal. -/
theorem engineLaw_iff (run : List (EngineEvent × EngineHistory))
    (hrun : Along EngineStep .start run) :
    (∀ x ∈ run, x.2.module.Paired) ∧
      ((∀ x ∈ run, EngineLaw x.2) ↔ Along Undisturbed .start run) := by
  have hpaired : ∀ x ∈ run, x.2.module.Paired :=
    Along.states (I := fun h => h.module.Paired) hrun hrun EngineLaw.start.paired
      fun _ _ _ h hstep _ => hstep.paired h
  refine ⟨hpaired, fun hlaws => ?_, fun hcond => ?_⟩
  · exact hrun.of_states EngineLaw.start hlaws fun _ _ _ hlaw hstep hlaw' =>
      (hstep.promised_iff hlaw).mp hlaw'.promised
  · exact hrun.states hcond EngineLaw.start fun _ _ _ hlaw => hlaw.step

/-- The run of the events. -/
def EngineHistory.replay (h : EngineHistory) : List EngineEvent → List (EngineEvent × EngineHistory)
  | [] => []
  | e :: events => (e, h.next e) :: (h.next e).replay events

/-- Settings with a DSN of their own. -/
def dsnSettings (dsn : String) : Settings := { databaseUrl := dsn }

/-- Disposed of and initialised with another DSN, one after the other. -/
def reinitRun : List (EngineEvent × EngineHistory) :=
  EngineHistory.start.replay
    [.initEngine (dsnSettings "a"), .disposeEngine, .disposed 0, .initEngine (dsnSettings "b")]

/-- No call is disturbed, and so the law holds. -/
theorem engineLaw_iff_reinit :
    (∀ x ∈ reinitRun, x.2.module.Paired) ∧ (∀ x ∈ reinitRun, EngineLaw x.2) ∧
      Along Undisturbed .start reinitRun := by
  have hrun : Along EngineStep .start reinitRun :=
    .cons ⟨trivial, rfl⟩ (.cons ⟨trivial, rfl⟩ (.cons ⟨Nat.zero_lt_one, rfl⟩
      (.cons ⟨trivial, rfl⟩ (.nil _ _))))
  have hcond : Along Undisturbed .start reinitRun := by
    refine .cons ?_ (.cons trivial (.cons rfl (.cons ?_ (.nil _ _))))
    · intro _ engine hengine
      cases hengine
    · intro _ engine hengine
      cases hengine
  obtain ⟨hpaired, hiff⟩ := engineLaw_iff reinitRun hrun
  exact ⟨hpaired, hiff.mpr hcond, hcond⟩

/-- Initialised with another DSN while the disposal is suspended. -/
def overlapRun : List (EngineEvent × EngineHistory) :=
  EngineHistory.start.replay
    [.initEngine (dsnSettings "a"), .disposeEngine, .initEngine (dsnSettings "b"), .disposed 0]

/-- Sessions go to the old DSN first, and then nowhere. -/
theorem engineLaw_overlap :
    Along EngineStep .start overlapRun ∧ ¬ (∀ x ∈ overlapRun, EngineLaw x.2) ∧
      overlapRun.map (fun x => (x.2.promised.map Settings.resolvedDatabaseUrl,
        x.2.module.sessionScope.toOption.map AsyncEngine.dsn)) =
        [(some "a", some "a"), (none, some "a"), (some "b", some "a"), (some "b", none)] := by
  have hrun : Along EngineStep .start overlapRun :=
    .cons ⟨trivial, rfl⟩ (.cons ⟨trivial, rfl⟩ (.cons ⟨trivial, rfl⟩
      (.cons ⟨Nat.zero_lt_one, rfl⟩ (.nil _ _))))
  refine ⟨hrun, fun hlaws => ?_, by decide +kernel⟩
  have hlaw := hlaws _ (List.mem_cons_of_mem _ (List.mem_cons_of_mem _ List.mem_cons_self))
  obtain ⟨engine, hsession, hdsn⟩ := hlaw.promised (dsnSettings "b") rfl
  obtain rfl := Except.ok.inj hsession
  exact absurd hdsn (by decide)

/-! ## Calls one after the other -/

/-- A call that is awaited to its end; `raises` tells how the await of a disposal ends. -/
inductive EngineCall where
  | initEngine (settings : Settings)
  | disposeEngine (raises : Bool)

/-- How the await of the only suspended disposal ends. -/
def disposal (raises : Bool) : EngineEvent := if raises then .disposeRaised 0 else .disposed 0

/-- The events of a call: a disposal without an engine has no await. -/
def EngineCall.events (m : DbModule) : EngineCall → List EngineEvent
  | .initEngine settings => [.initEngine settings]
  | .disposeEngine raises =>
    match m.engine with
    | none => [.disposeEngine]
    | some _ => [.disposeEngine, disposal raises]

def EngineHistory.after (h : EngineHistory) (events : List EngineEvent) : EngineHistory :=
  events.foldl EngineHistory.next h

/-- The run of the calls. -/
def EngineHistory.serve (h : EngineHistory) : List EngineCall → List (EngineEvent × EngineHistory)
  | [] => []
  | call :: calls =>
    h.replay (call.events h.module) ++ (h.after (call.events h.module)).serve calls

/-- Behind a disposal that raises, and up to one that does not, every `init_engine` has
the DSN. -/
def KeepsDsn (dsn : String) : Bool → List EngineCall → Prop
  | _, [] => True
  | raised, .initEngine settings :: calls =>
    (raised → settings.resolvedDatabaseUrl = dsn) ∧ KeepsDsn dsn raised calls
  | _, .disposeEngine true :: calls => KeepsDsn dsn true calls
  | _, .disposeEngine false :: _ => True

/-- No disposal raises between an `init_engine` and one with another DSN. -/
def Orderly : List EngineCall → Prop
  | [] => True
  | .initEngine settings :: calls =>
    KeepsDsn settings.resolvedDatabaseUrl false calls ∧ Orderly calls
  | .disposeEngine _ :: calls => Orderly calls

theorem KeepsDsn.of_raised {dsn : String} {calls : List EngineCall} (h : KeepsDsn dsn true calls) :
    KeepsDsn dsn false calls := by
  induction calls with
  | nil => trivial
  | cons call calls ih =>
    cases call with
    | initEngine settings => exact ⟨fun hraised => (Bool.false_ne_true hraised).elim, ih h.2⟩
    | disposeEngine raises =>
      cases raises with
      | true => exact h
      | false => trivial

/-- What holds between two calls: no disposal is suspended, and the calls to come keep to the
DSN of an engine that a disposal has left. -/
structure EngineHistory.Ready (h : EngineHistory) (calls : List EngineCall) : Prop where
  law : EngineLaw h
  disposals : h.module.disposals = []
  orderly : Orderly calls
  keeps : ∀ engine ∈ h.module.engine, KeepsDsn engine.dsn h.promised.isNone calls

theorem EngineLaw.next {h : EngineHistory} (hlaw : EngineLaw h) (e : EngineEvent)
    (henabled : h.Enabled e) (hcond : Undisturbed h e (h.next e)) : EngineLaw (h.next e) :=
  hlaw.step ⟨henabled, rfl⟩ hcond

namespace EngineHistory

variable {h : EngineHistory} {calls : List EngineCall}

theorem Ready.initEngine {settings : Settings} (hready : h.Ready (.initEngine settings :: calls)) :
    (h.next (.initEngine settings)).Ready calls := by
  obtain ⟨hlaw, hdisposals, ⟨hothers, horderly⟩, hkeeps⟩ := hready
  have hcond : Undisturbed h (.initEngine settings) (h.next (.initEngine settings)) := by
    intro hnone engine hengine
    have hdsn := (hkeeps engine hengine).1
    rw [hnone] at hdsn
    exact (hdsn rfl).symm
  refine ⟨hlaw.next (.initEngine settings) trivial hcond, ?_, horderly, ?_⟩
  · simp only [next, DbModule.initEngine]
    split
    · exact hdisposals
    · exact hdisposals
  · obtain ⟨engine, hengine, hnew, hkept⟩ := engine_initEngine h.module settings
    intro engine' hengine'
    obtain rfl : engine = engine' := Option.some.inj (hengine.symm.trans hengine')
    have hpromised : (h.next (.initEngine settings)).promised.isNone = false := by
      simp only [next]
      cases h.promised <;> rfl
    rw [hpromised]
    cases hold : h.module.engine with
    | none =>
      rw [hnew hold]
      exact hothers
    | some old =>
      -- the engine was there before, and its DSN has been kept to
      obtain rfl := hkept old hold
      have hrest := (hkeeps engine hold).2
      cases hnone : h.promised.isNone with
      | true =>
        rw [hnone] at hrest
        exact hrest.of_raised
      | false =>
        rw [hnone] at hrest
        exact hrest

theorem Ready.disposeEngine {raises : Bool} (hready : h.Ready (.disposeEngine raises :: calls))
    {engine : AsyncEngine} (hengine : h.module.engine = some engine) :
    ((h.next .disposeEngine).next (disposal raises)).Ready calls := by
  obtain ⟨hlaw, hdisposals, horderly, hkeeps⟩ := hready
  have hsuspended : (h.next .disposeEngine).module.disposals = [engine] := by
    simp only [next, DbModule.disposeEngine, hengine, hdisposals, List.nil_append]
  have hleft : (h.next .disposeEngine).module.engine = some engine := by
    simp only [next, DbModule.disposeEngine, hengine]
  have henabled : 0 < (h.next .disposeEngine).module.disposals.length := by
    rw [hsuspended]
    exact Nat.zero_lt_one
  have hbegun : EngineLaw (h.next .disposeEngine) := hlaw.next .disposeEngine trivial trivial
  have hended : ((h.next .disposeEngine).module.disposals).eraseIdx 0 = [] := by
    rw [hsuspended]
    rfl
  cases raises with
  | true =>
    refine ⟨hbegun.next (.disposeRaised 0) henabled trivial, hended, horderly, ?_⟩
    intro engine' hengine'
    obtain rfl : engine = engine' := Option.some.inj (hleft.symm.trans hengine')
    exact hkeeps engine hengine
  | false =>
    refine ⟨hbegun.next (.disposed 0) henabled rfl, hended, horderly, ?_⟩
    intro engine' hengine'
    cases hengine'

theorem Ready.disposeEngine_none {raises : Bool}
    (hready : h.Ready (.disposeEngine raises :: calls)) (hengine : h.module.engine = none) :
    (h.next .disposeEngine).Ready calls := by
  obtain ⟨hlaw, hdisposals, horderly, -⟩ := hready
  refine ⟨hlaw.next .disposeEngine trivial trivial, ?_, horderly, ?_⟩
  · simp only [next, DbModule.disposeEngine, hengine]
    exact hdisposals
  · intro engine hnew
    simp [next, DbModule.disposeEngine, hengine, DbModule.clear] at hnew

/-- One call: the law holds in every state of it, and the history is ready for the next. -/
theorem Ready.call {call : EngineCall} (hready : h.Ready (call :: calls)) :
    (∀ x ∈ h.replay (call.events h.module), EngineLaw x.2) ∧
      (h.after (call.events h.module)).Ready calls := by
  cases call with
  | initEngine settings =>
    have hnext := hready.initEngine
    refine ⟨?_, hnext⟩
    intro x hx
    rw [List.mem_singleton.mp hx]
    exact hnext.law
  | disposeEngine raises =>
    have hbegun : EngineLaw (h.next .disposeEngine) :=
      hready.law.next .disposeEngine trivial trivial
    rw [EngineCall.events]
    cases hengine : h.module.engine with
    | none =>
      refine ⟨?_, hready.disposeEngine_none hengine⟩
      intro x hx
      rw [List.mem_singleton.mp hx]
      exact hbegun
    | some engine =>
      have hended := hready.disposeEngine hengine
      refine ⟨?_, hended⟩
      intro x hx
      obtain rfl | hx := List.mem_cons.mp hx
      · exact hbegun
      · rw [List.mem_singleton.mp hx]
        exact hended.law

theorem Ready.serve (hready : h.Ready calls) : ∀ x ∈ h.serve calls, EngineLaw x.2 := by
  induction calls generalizing h with
  | nil => simp [EngineHistory.serve]
  | cons call calls ih =>
    obtain ⟨hlaws, hnext⟩ := hready.call
    rw [EngineHistory.serve]
    exact List.forall_mem_append.mpr ⟨hlaws, ih hnext⟩

theorem endState_replay (h : EngineHistory) (events : List EngineEvent) :
    endState h (h.replay events) = h.after events := by
  induction events generalizing h with
  | nil => rfl
  | cons e events ih => exact ih (h.next e)

theorem replay_steps (h : EngineHistory) (call : EngineCall) :
    Along EngineStep h (h.replay (call.events h.module)) := by
  cases call with
  | initEngine settings => exact .cons ⟨trivial, rfl⟩ (.nil _ _)
  | disposeEngine raises =>
    rw [EngineCall.events]
    cases hengine : h.module.engine with
    | none => exact .cons ⟨trivial, rfl⟩ (.nil _ _)
    | some engine =>
      have hsuspended : 0 < (h.next .disposeEngine).module.disposals.length := by
        simp [next, DbModule.disposeEngine, hengine]
      refine .cons ⟨trivial, rfl⟩ (.cons ⟨?_, rfl⟩ (.nil _ _))
      cases raises with
      | true => exact hsuspended
      | false => exact hsuspended

/-- The calls are a run. -/
theorem serve_steps (h : EngineHistory) (calls : List EngineCall) :
    Along EngineStep h (h.serve calls) := by
  induction calls generalizing h with
  | nil => trivial
  | cons call calls ih =>
    rw [serve, Along.append_iff, endState_replay]
    exact ⟨h.replay_steps call, ih _⟩

end EngineHistory

/-- Where every disposal is awaited to its end, and none raises before an `init_engine` with
another DSN, sessions always go where they are promised to. -/
theorem engineLaw_of_calls {calls : List EngineCall} (h : Orderly calls) :
    Along EngineStep .start (EngineHistory.start.serve calls) ∧
      ∀ x ∈ EngineHistory.start.serve calls, EngineLaw x.2 :=
  ⟨EngineHistory.start.serve_steps calls,
    EngineHistory.Ready.serve ⟨EngineLaw.start, rfl, h, fun _ hengine => by cases hengine⟩⟩

end TelemetryApi
