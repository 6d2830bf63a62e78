import TelemetryApi.Engine

/-!
# The lifespan of the application

`lifespan` of `app/main.py` with the cache of `get_settings`: a process that is started up
and shut down any number of times while its environment changes. Requests are served
between the end of a startup and the shutdown, and a startup begins when the shutdown
before it has returned or raised.
-/

namespace TelemetryApi

inductive Phase where
  | outside
  | serving
  /-- `await dispose_engine()` -/
  | disposing

/-- The process: the cache of `get_settings`, the globals of `app/db.py`, and how many
engines have been disposed of. -/
structure AppProcess where
  cached : Option Settings
  history : EngineHistory
  phase : Phase
  disposed : Nat

/-- Where settings are read, the environment is given as the settings that it holds. -/
inductive LifespanEvent where
  | startup (env : Settings)
  /-- `_configure_logging` raises on a log level that it does not know. -/
  | loggingRaised (env : Settings)
  /-- `create_async_engine` raises. -/
  | initRaised (env : Settings)
  | request (env : Settings)
  | shutdown
  | disposed
  | disposeRaised

namespace AppProcess

variable (p : AppProcess)

/-- `get_settings` -/
def getSettings (env : Settings) : Settings := p.cached.getD env

/-- The process behind a call of `get_settings`. -/
def cache (env : Settings) : AppProcess := { p with cached := some (p.getSettings env) }

/-- What a request works with: its settings, and the engine of its session. -/
def serves (env : Settings) : Settings × Except String AsyncEngine :=
  (p.getSettings env, p.history.module.sessionScope)

/-- The process behind the import of `app/main.py`, which reads the settings. -/
def imported (env : Settings) : AppProcess := ⟨some env, .start, .outside, 0⟩

def next : LifespanEvent → AppProcess
  | .startup env =>
    { p.cache env with
      history := p.history.next (.initEngine (p.getSettings env)), phase := .serving }
  | .loggingRaised env => p.cache env
  | .initRaised env => { p.cache env with history := p.history.next (.initRaised (p.getSettings env)) }
  | .request env => p.cache env
  | .shutdown =>
    { p with
      history := p.history.next .disposeEngine
      phase := if p.history.module.engine.isSome then .disposing else .outside }
  | .disposed =>
    { p with history := p.history.next (.disposed 0), phase := .outside, disposed := p.disposed + 1 }
  | .disposeRaised => { p with history := p.history.next (.disposeRaised 0), phase := .outside }

def Enabled : LifespanEvent → Prop
  | .startup _ | .loggingRaised _ => p.phase = .outside
  | .initRaised _ => p.phase = .outside ∧ p.history.module.engine = none
  | .request _ | .shutdown => p.phase = .serving
  | .disposed | .disposeRaised => p.phase = .disposing

structure Step (p : AppProcess) (e : LifespanEvent) (p' : AppProcess) : Prop where
  enabled : p.Enabled e
  next : p' = p.next e

/-- The engine, the promise and the disposals in each phase. -/
def InPhase (env : Settings) : Prop :=
  match p.phase with
  | .outside => p.history.promised = none ∧ p.history.module.disposals = []
  | .serving => p.history.promised = some env ∧ p.history.module.disposals = [] ∧
      p.history.module.engine.isSome
  | .disposing => p.history.promised = none ∧ p.history.module.disposals.length = 1 ∧
      p.history.module.engine.isSome

/-- The process keeps to the settings it was imported with, and every engine it has created
but the current one has been disposed of. -/
structure Sound (env : Settings) (p : AppProcess) : Prop where
  cached : p.cached = some env
  paired : p.history.module.Paired
  dsn : ∀ engine ∈ p.history.module.engine, engine.dsn = env.resolvedDatabaseUrl
  inPhase : p.InPhase env
  created : p.history.module.created = p.disposed + p.history.module.engine.toList.length

variable {p} {env : Settings}

theorem Sound.getSettings (h : p.Sound env) (env' : Settings) : p.getSettings env' = env := by
  rw [AppProcess.getSettings, h.cached, Option.getD_some]

theorem Sound.cache (h : p.Sound env) (env' : Settings) : p.cache env' = p := by
  rw [AppProcess.cache, h.getSettings, ← h.cached]

theorem Sound.outside (h : p.Sound env) (hphase : p.phase = .outside) :
    p.history.promised = none ∧ p.history.module.disposals = [] := by
  have hin := h.inPhase
  rwa [InPhase, hphase] at hin

theorem Sound.serving (h : p.Sound env) (hphase : p.phase = .serving) :
    p.history.promised = some env ∧ p.history.module.disposals = [] ∧
      ∃ engine, p.history.module.engine = some engine := by
  have hin := h.inPhase
  rw [InPhase, hphase] at hin
  exact hin.imp_right (And.imp_right Option.isSome_iff_exists.mp)

theorem Sound.disposing (h : p.Sound env) (hphase : p.phase = .disposing) :
    p.history.promised = none ∧ (∃ old, p.history.module.disposals = [old]) ∧
      ∃ engine, p.history.module.engine = some engine := by
  have hin := h.inPhase
  rw [InPhase, hphase] at hin
  exact hin.imp_right (And.imp List.length_eq_one_iff.mp Option.isSome_iff_exists.mp)

/-- `init_engine` on the globals of a sound process. -/
theorem Sound.initEngine (h : p.Sound env) :
    (∀ engine ∈ (p.history.module.initEngine env).engine, engine.dsn = env.resolvedDatabaseUrl) ∧
      (p.history.module.initEngine env).engine.isSome ∧
      (p.history.module.initEngine env).disposals = p.history.module.disposals ∧
      (p.history.module.initEngine env).created =
        p.disposed + (p.history.module.initEngine env).engine.toList.length := by
  have hdsn := h.dsn
  have hcreated := h.created
  cases hengine : p.history.module.engine with
  | some engine =>
    have hsame : p.history.module.initEngine env = p.history.module := by
      rw [DbModule.initEngine, hengine]
    rw [hengine] at hdsn hcreated
    rw [hsame, hengine]
    exact ⟨hdsn, rfl, rfl, hcreated⟩
  | none =>
    have hnew : p.history.module.initEngine env =
        { p.history.module with
          engine := some ⟨p.history.module.created, env.resolvedDatabaseUrl⟩
          sessionFactory := some ⟨⟨p.history.module.created, env.resolvedDatabaseUrl⟩⟩
          created := p.history.module.created + 1 } := by
      rw [DbModule.initEngine, hengine]
    rw [hengine] at hcreated
    rw [hnew]
    refine ⟨?_, rfl, rfl, ?_⟩
    · rintro engine hengine'
      obtain rfl := Option.some.inj hengine'
      rfl
    · simpa using hcreated

theorem Sound.imported (env : Settings) : (imported env).Sound env where
  cached := rfl
  paired := rfl
  dsn engine hengine := by cases hengine
  inPhase := ⟨rfl, rfl⟩
  created := rfl

theorem Sound.step {p' : AppProcess} {e : LifespanEvent} (h : p.Sound env) (hstep : p.Step e p') :
    p'.Sound env := by
  obtain ⟨henabled, rfl⟩ := hstep
  cases e with
  | startup env' =>
    obtain ⟨hpromised, hnone⟩ := h.outside henabled
    obtain ⟨hdsn, hsome, hdisposals, hcreated⟩ := h.initEngine
    simp only [AppProcess.next, h.cache, h.getSettings, EngineHistory.next]
    refine ⟨h.cached, h.paired.initEngine env, hdsn, ?_, hcreated⟩
    exact ⟨by rw [hpromised]; rfl, hdisposals.trans hnone, hsome⟩
  | loggingRaised env' => exact (h.cache env').symm ▸ h
  | initRaised env' => exact (h.cache env').symm ▸ h
  | request env' => exact (h.cache env').symm ▸ h
  | shutdown =>
    obtain ⟨-, hdisposals, engine, hengine⟩ := h.serving henabled
    have hdsn := h.dsn
    have hcreated := h.created
    have hpaired := h.paired.disposeEngine
    simp only [AppProcess.next, EngineHistory.next, DbModule.disposeEngine, hengine] at hpaired ⊢
    rw [hengine] at hdsn hcreated
    refine ⟨h.cached, hpaired, ?_, ?_, ?_⟩
    · simpa [hengine] using hdsn
    · exact ⟨rfl, by simp [hdisposals], rfl⟩
    · simpa [hengine] using hcreated
  | disposed =>
    obtain ⟨hpromised, ⟨old, hdisposals⟩, engine, hengine⟩ := h.disposing henabled
    have hcreated := h.created
    rw [hengine] at hcreated
    refine ⟨h.cached, rfl, ?_, ?_, ?_⟩
    · intro engine hengine
      cases hengine
    · exact ⟨hpromised, by simp [AppProcess.next, EngineHistory.next, DbModule.leaveAwait,
        DbModule.clear, hdisposals]⟩
    · simpa [AppProcess.next, EngineHistory.next, DbModule.leaveAwait, DbModule.clear] using hcreated
  | disposeRaised =>
    obtain ⟨hpromised, ⟨old, hdisposals⟩, -⟩ := h.disposing henabled
    refine ⟨h.cached, h.paired, h.dsn, ?_, h.created⟩
    exact ⟨hpromised, by simp [AppProcess.next, EngineHistory.next, DbModule.leaveAwait, hdisposals]⟩

/-- A sound process keeps the promises of `init_engine`. -/
theorem Sound.engineLaw (h : p.Sound env) : EngineLaw p.history where
  paired := h.paired
  promised := by
    rw [EngineHistory.promised_iff h.paired]
    intro settings hsettings
    cases hphase : p.phase with
    | outside =>
      rw [(h.outside hphase).1] at hsettings
      cases hsettings
    | serving =>
      obtain ⟨hpromised, -, engine, hengine⟩ := h.serving hphase
      rw [hpromised] at hsettings
      obtain rfl := Option.some.inj hsettings
      exact ⟨engine, hengine, h.dsn engine hengine⟩
    | disposing =>
      rw [(h.disposing hphase).1] at hsettings
      cases hsettings

/-- However often a process is started up and shut down, whatever becomes of its
environment and of the disposals: `init_engine` keeps its promise, every request is served
with the settings of the import and a session on their DSN, and of the engines created all
but the current one have been disposed of. -/
theorem lifespans_serve (env : Settings) (run : List (LifespanEvent × AppProcess))
    (hrun : Along Step (imported env) run) :
    ∀ x ∈ run, EngineLaw x.2.history ∧
      (x.2.phase = .serving → ∀ env', ∃ engine, x.2.serves env' = (env, .ok engine) ∧
        engine.dsn = env.resolvedDatabaseUrl) ∧
      x.2.history.module.created = x.2.disposed + x.2.history.module.engine.toList.length := by
  have hsound : ∀ x ∈ run, x.2.Sound env :=
    hrun.states (I := Sound env) hrun (Sound.imported env) fun _ _ _ h hstep _ => h.step hstep
  intro x hx
  have h := hsound x hx
  refine ⟨h.engineLaw, ?_, h.created⟩
  intro hphase env'
  obtain ⟨-, -, engine, hengine⟩ := h.serving hphase
  refine ⟨engine, ?_, h.dsn engine hengine⟩
  rw [serves, h.getSettings, h.paired.sessionScope_eq_ok.mpr hengine]

/-- The run of the events. -/
def replay (p : AppProcess) : List LifespanEvent → List (LifespanEvent × AppProcess)
  | [] => []
  | e :: events => (e, p.next e) :: (p.next e).replay events

/-- A disposal that raises, a startup under another environment, and a clean shutdown. -/
def restartRun : List (LifespanEvent × AppProcess) :=
  (imported (dsnSettings "a")).replay
    [.startup (dsnSettings "a"), .shutdown, .disposeRaised, .startup (dsnSettings "b"),
      .request (dsnSettings "b"), .shutdown, .disposed]

/-- The request behind the second startup is served with the settings of the import. -/
theorem lifespans_serve_restart :
    ∃ x ∈ restartRun, EngineLaw x.2.history ∧
      (∃ engine, x.2.serves (dsnSettings "b") = (dsnSettings "a", .ok engine) ∧
        engine.dsn = (dsnSettings "a").resolvedDatabaseUrl) ∧
      x.2.history.module.created = x.2.disposed + x.2.history.module.engine.toList.length := by
  obtain ⟨hlaw, hserves, hcreated⟩ := lifespans_serve (dsnSettings "a") restartRun
    (.cons ⟨rfl, rfl⟩ (.cons ⟨rfl, rfl⟩ (.cons ⟨rfl, rfl⟩ (.cons ⟨rfl, rfl⟩ (.cons ⟨rfl, rfl⟩
      (.cons ⟨rfl, rfl⟩ (.cons ⟨rfl, rfl⟩ (.nil _ _)))))))) (restartRun.get ⟨4, by decide⟩)
    (List.get_mem _ _)
  exact ⟨_, List.get_mem _ _, hlaw, hserves rfl (dsnSettings "b"), hcreated⟩

end AppProcess

end TelemetryApi
