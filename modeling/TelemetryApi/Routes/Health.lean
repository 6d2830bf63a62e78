import TelemetryApi.Foundations.Probe
import TelemetryApi.Db
import TelemetryApi.Schemas

/-!
# The probes of the cluster

`GET /healthz` and `GET /readyz` of `app/routes/health.py`, and the readiness probe
of `k8s/deployment.yaml` that calls the latter.
-/

namespace TelemetryApi

structure HealthResponse where
  status : Literal ["ok", "degraded"]
  db : Literal ["ok", "down"]
  version : String

/-- `__version__` -/
def version : String := "0.1.0"

/-- What a probe finds: the error that `SELECT 1` raises, and the reply to `COMMIT`. -/
structure DbCondition where
  select1 : Option String
  commit : CommitReply

/-- The database in that condition; a probe inserts nothing. -/
def DbCondition.database (c : DbCondition) : Database where
  execute _ _ := c.select1
  commit _ _ := c.commit

/-- `healthz` -/
def healthz : HealthResponse where
  status := ⟨"ok", by decide⟩
  db := ⟨"ok", by decide⟩
  version := version

/-- `readyz`, which swallows every exception of its statement. -/
def readyz (c : DbCondition) (session : Session) : Except PyExc HealthResponse × Session :=
  match c.select1 with
  | none => (.ok ⟨⟨"ok", by decide⟩, ⟨"ok", by decide⟩, version⟩, session)
  | some _ => (.ok ⟨⟨"degraded", by decide⟩, ⟨"down", by decide⟩, version⟩, session)

/-- The status of a route that returns a model. -/
def statusOf {α : Type} : Except PyExc α → Nat
  | .ok _ => 200
  | .error (.http e) => e.statusCode
  | .error _ => 500

/-- `GET /readyz` within its `session_scope`. -/
def getReadyz (c : DbCondition) : Except PyExc HealthResponse :=
  (sessionScope c.database [] (readyz c)).1

/-- `httpGet` of the kubelet: a status from 200 to 399 is a success. -/
def probeSucceeds (status : Nat) : Bool := decide (200 ≤ status ∧ status ≤ 399)

/-- `failureThreshold` of the readiness probe. -/
def failureThreshold : Nat := 3

/-- The readiness probe succeeds in that condition. -/
def DbCondition.probed (c : DbCondition) : Bool := probeSucceeds (statusOf (getReadyz c))

/-- The pod after probes that found the database in these conditions. -/
def podAfter (start : Prober) (conditions : List DbCondition) : Prober :=
  start.run failureThreshold (conditions.map DbCondition.probed)

/-- Connecting fails, and the session has nothing to commit. -/
def DbCondition.unreachable (c : DbCondition) : Bool :=
  match c.select1, c.commit with
  | some _, .done => true
  | _, _ => false

def DbCondition.reachable (c : DbCondition) : Bool :=
  match c.select1, c.commit with
  | none, .done => true
  | _, _ => false

/-- The pod is out of the Service when the last three probes or more found the
database unreachable, and does not count as failing when the last one reached it. -/
structure DetectsOutage (start : Prober) (conditions : List DbCondition) : Prop where
  outage : 3 ≤ trailing DbCondition.unreachable conditions →
    (podAfter start conditions).ready = false
  recovery : 0 < trailing DbCondition.reachable conditions →
    (podAfter start conditions).failures = 0

/-- The transaction of the probe commits. -/
def DbCondition.commits (c : DbCondition) : Bool :=
  match c.commit with
  | .done => true
  | _ => false

/-- The statement of the probe has no part in its outcome. -/
theorem DbCondition.probed_eq_commits (c : DbCondition) : c.probed = c.commits := by
  obtain ⟨select1, commit⟩ := c
  cases select1 <;> cases commit <;> rfl

theorem DbCondition.commits_of_unreachable {c : DbCondition} (h : c.unreachable) : c.commits := by
  obtain ⟨select1, commit⟩ := c
  cases select1 <;> cases commit <;> first | rfl | cases h

theorem DbCondition.commits_of_reachable {c : DbCondition} (h : c.reachable) : c.commits := by
  obtain ⟨select1, commit⟩ := c
  cases select1 <;> cases commit <;> first | rfl | cases h

/-- A probe whose transaction commits makes the pod ready. -/
theorem podAfter_concat (start : Prober) (conditions : List DbCondition) {c : DbCondition}
    (h : c.commits) : podAfter start (conditions ++ [c]) = ⟨true, 0⟩ := by
  rw [podAfter, List.map_append, List.map_singleton, c.probed_eq_commits, h,
    Prober.run_concat_success]

/-- Only probes whose `COMMIT` fails take a ready pod out of the Service. -/
theorem ready_podAfter_iff (conditions : List DbCondition) :
    (podAfter ⟨true, 0⟩ conditions).ready ↔ trailing (fun c => !c.commits) conditions < 3 := by
  have hprobed : (! ·) ∘ DbCondition.probed = fun c => !c.commits := by
    funext c
    exact congrArg (! ·) c.probed_eq_commits
  rw [podAfter, Prober.ready_run_iff (by decide), trailing_map, hprobed]
  rfl

/-- After every run of probes, outages and recoveries are seen exactly when fewer than
three probes at its end found the database unreachable. -/
theorem detectsOutage_iff (start : Prober) (conditions : List DbCondition) :
    DetectsOutage start conditions ↔ trailing DbCondition.unreachable conditions < 3 := by
  constructor
  · intro h
    by_contra hlong
    have hready := h.outage (by omega)
    obtain ⟨conditions, c, rfl, hc⟩ := exists_concat_of_trailing_pos
      (p := DbCondition.unreachable) (l := conditions) (by omega)
    rw [podAfter_concat start conditions (DbCondition.commits_of_unreachable hc)] at hready
    cases hready
  · intro hshort
    refine ⟨fun h => absurd h (by omega), fun h => ?_⟩
    obtain ⟨conditions, c, rfl, hc⟩ := exists_concat_of_trailing_pos h
    rw [podAfter_concat start conditions (DbCondition.commits_of_reachable hc)]

/-- Nothing answers at the address of the database. -/
def downCondition : DbCondition := ⟨some "connection refused", .done⟩

/-- Three probes during an outage leave the pod ready. -/
theorem podAfter_outage :
    trailing DbCondition.unreachable [downCondition, downCondition, downCondition] = 3 ∧
      (podAfter ⟨true, 0⟩ [downCondition, downCondition, downCondition]).ready = true ∧
      ¬ DetectsOutage ⟨true, 0⟩ [downCondition, downCondition, downCondition] := by
  have hready : (podAfter ⟨true, 0⟩ [downCondition, downCondition, downCondition]).ready = true := by
    decide
  refine ⟨by decide, hready, fun h => ?_⟩
  rw [h.outage (by decide)] at hready
  cases hready

end TelemetryApi
