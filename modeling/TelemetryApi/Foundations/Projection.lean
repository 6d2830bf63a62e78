import TelemetryApi.Foundations.Tasks

/-!
# Projections of interleaved tasks

The tasks of one automaton can be seen as tasks of another, which takes a step of its own
or stands still wherever the first one moves. What the jobs of the second automaton are may
depend on what the tasks come to later: the projection is then for a foretold future.
-/

namespace TelemetryApi

namespace Tasks

variable {ρ σ ε ρ' σ' ε' : Type*}

/-- The tasks with other jobs, stages and entries. -/
def project (job : Nat → ρ → ρ') (stage : σ → σ') (entry : ε → Option ε') (t : Tasks ρ σ ε) :
    Tasks ρ' σ' ε' :=
  ⟨t.jobs.mapIdx job, fun i => stage (t.stage i),
    t.log.filterMap fun e => (entry e.2).map fun e' => (e.1, e')⟩

variable {job : Nat → ρ → ρ'} {stage : σ → σ'} {entry : ε → Option ε'}

theorem emitted_project (t : Tasks ρ σ ε) (i : Nat) :
    (t.project job stage entry).emitted i = (t.emitted i).filterMap entry := by
  simp only [emitted, project]
  induction t.log with
  | nil => rfl
  | cons e log ih =>
    by_cases hi : e.1 = i
    · cases hentry : entry e.2 with
      | none => simp [hi, hentry, ih]
      | some e' => simp [hi, hentry, ih]
    · cases hentry : entry e.2 with
      | none => simp [hi, hentry, ih]
      | some e' => simp [hi, hentry, ih]

theorem project_spawn (start : σ) (j : ρ) (t : Tasks ρ σ ε) :
    (t.spawn start j).project job stage entry =
      (t.project job stage entry).spawn (stage start) (job t.jobs.length j) := by
  have hstage : (fun i => stage (Function.update t.stage t.jobs.length start i)) =
      Function.update (fun i => stage (t.stage i)) t.jobs.length (stage start) :=
    Function.comp_update stage t.stage t.jobs.length start
  simp only [project, spawn, List.mapIdx_concat, List.length_mapIdx, hstage]

theorem project_advance (i : Nat) (out : Option ε) (s : σ) (t : Tasks ρ σ ε) :
    (t.advance i out s).project job stage entry =
      (t.project job stage entry).advance i (out.bind entry) (stage s) := by
  have hstage : (fun j => stage (Function.update t.stage i s j)) =
      Function.update (fun j => stage (t.stage j)) i (stage s) :=
    Function.comp_update stage t.stage i s
  have hlog : (t.log ++ out.toList.map fun e => (i, e)).filterMap
        (fun e => (entry e.2).map fun e' => (e.1, e')) =
      t.log.filterMap (fun e => (entry e.2).map fun e' => (e.1, e')) ++
        (out.bind entry).toList.map fun e' => (i, e') := by
    rw [List.filterMap_append]
    cases out with
    | none => rfl
    | some e => cases hentry : entry e <;> simp [hentry]
  simp only [project, advance, hstage, hlog]

theorem stage_spawn_of_lt {t : Tasks ρ σ ε} (start : σ) (j : ρ) {i : Nat} (h : i < t.jobs.length) :
    (t.spawn start j).stage i = t.stage i :=
  Function.update_of_ne h.ne _ _

theorem stage_advance_self (t : Tasks ρ σ ε) (i : Nat) (out : Option ε) (s : σ) :
    (t.advance i out s).stage i = s :=
  Function.update_self _ _ _

theorem stage_advance_of_ne (t : Tasks ρ σ ε) {i i' : Nat} (h : i' ≠ i) (out : Option ε) (s : σ) :
    (t.advance i out s).stage i' = t.stage i' :=
  Function.update_of_ne h _ _

/-- A step without an entry that does not change the stage changes nothing. -/
theorem advance_self {t : Tasks ρ σ ε} {i : Nat} {s : σ} (h : s = t.stage i) :
    t.advance i none s = t := by
  rw [h, advance, Function.update_eq_self]
  exact congrArg (Tasks.mk t.jobs t.stage) (List.append_nil _)

variable {run : ρ → σ → Option ε → σ → Prop} {start : σ} {run' : ρ' → σ' → Option ε' → σ' → Prop}

/-- Where each step is a step of the other automaton or none, as long as what the job has
been foretold agrees with the stage behind it, the projected tasks are reachable. -/
theorem reachable_project (Foretold : Nat → ρ → σ → Prop)
    (hback : ∀ i j s out s', run j s out s' → Foretold i j s' → Foretold i j s)
    (hrun : ∀ i j s out s', run j s out s' → Foretold i j s' →
      run' (job i j) (stage s) (out.bind entry) (stage s') ∨
        out.bind entry = none ∧ stage s' = stage s)
    {t : Tasks ρ σ ε} (h : Relation.ReflTransGen (Step run start) (empty start) t)
    (hforetold : ∀ i j, t.jobs[i]? = some j → Foretold i j (t.stage i)) :
    Relation.ReflTransGen (Step run' (stage start)) (empty (stage start))
      (t.project job stage entry) := by
  induction h with
  | refl => exact .refl
  | @tail t t' _ hstep ih =>
    cases hstep with
    | spawn j =>
      have hbefore : ∀ i j', t.jobs[i]? = some j' → Foretold i j' (t.stage i) := by
        intro i j' hi
        have hlt : i < t.jobs.length := (List.getElem?_eq_some_iff.mp hi).1
        have hafter := hforetold i j' (by rw [spawn, List.getElem?_append_left hlt, hi])
        rwa [stage_spawn_of_lt start j hlt] at hafter
      rw [project_spawn]
      exact (ih hbefore).tail (.spawn _ _)
    | advance hadvance =>
      obtain @⟨i, j, out, s, hjob, hstep⟩ := hadvance
      have hnow : Foretold i j s := by
        have hafter := hforetold i j hjob
        rwa [stage_advance_self] at hafter
      have hbefore : ∀ i' j', t.jobs[i']? = some j' → Foretold i' j' (t.stage i') := by
        intro i' j' hi'
        by_cases hi : i' = i
        · subst hi
          obtain rfl : j = j' := Option.some.inj (hjob.symm.trans hi')
          exact hback _ _ _ _ _ hstep hnow
        · have hafter := hforetold i' j' hi'
          rwa [stage_advance_of_ne t hi] at hafter
      have hreach := ih hbefore
      rw [project_advance]
      obtain hmove | ⟨hnone, hsame⟩ := hrun i j _ _ _ hstep hnow
      · refine hreach.tail (.advance (.advance ?_ hmove))
        rw [project, List.getElem?_mapIdx, hjob]
        rfl
      · rw [hnone, advance_self hsame]
        exact hreach

/-- The entries of the log, task by task. -/
theorem Each.log_perm_emitted {P : ρ → σ → List ε → Prop} {t : Tasks ρ σ ε} (ht : t.Each P) :
    (t.log.map (·.2)).Perm ((List.range t.jobs.length).flatMap t.emitted) := by
  have hall : t.log.filter (·.1 < t.jobs.length) = t.log :=
    List.filter_eq_self.mpr fun e he => decide_eq_true (ht.started e he)
  have hperm := log_perm_range t.log t.jobs.length
  rw [hall] at hperm
  exact hperm

end Tasks

end TelemetryApi
