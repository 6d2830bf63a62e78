import Mathlib.Logic.Relation
import Mathlib.Data.List.Nodup
import Mathlib.Data.List.Perm.Subperm
import Mathlib.Data.List.Range

/-!
# Interleaved tasks over a shared log

Any number of tasks run the same automaton, each on a job of its own, and their
steps interleave in any order. A step may append an entry to a log that all
tasks share. What one task keeps, along its own steps, every interleaving keeps
for each of its tasks.
-/

namespace TelemetryApi

/-- What holds at the start and is kept by every step holds in every state
reached. -/
theorem invariant_of_reachable {σ : Type*} {step : σ → σ → Prop} {I : σ → Prop} {s₀ s : σ}
    (h : Relation.ReflTransGen step s₀ s) (h₀ : I s₀) (hstep : ∀ s s', step s s' → I s → I s') :
    I s := by
  induction h with
  | refl => exact h₀
  | tail _ hst ih => exact hstep _ _ hst ih

/-- The jobs in the order of their start, the stage of each task, and the log
with the task of each entry. -/
structure Tasks (ρ σ ε : Type*) where
  jobs : List ρ
  stage : Nat → σ
  log : List (Nat × ε)

namespace Tasks

variable {ρ σ ε : Type*} (run : ρ → σ → Option ε → σ → Prop) (start : σ)

/-- No task has been started. -/
def empty : Tasks ρ σ ε := ⟨[], fun _ => start, []⟩

/-- Start a task on a job. -/
def spawn (job : ρ) (t : Tasks ρ σ ε) : Tasks ρ σ ε :=
  ⟨t.jobs ++ [job], Function.update t.stage t.jobs.length start, t.log⟩

/-- Move a task to a stage, with the entry it leaves in the log. -/
def advance (i : Nat) (out : Option ε) (s : σ) (t : Tasks ρ σ ε) : Tasks ρ σ ε :=
  ⟨t.jobs, Function.update t.stage i s, t.log ++ out.toList.map fun e => (i, e)⟩

/-- One of the tasks takes a step of its automaton. -/
inductive Advance : Tasks ρ σ ε → Tasks ρ σ ε → Prop
  | advance {t : Tasks ρ σ ε} {i : Nat} {job : ρ} {out : Option ε} {s : σ}
      (hjob : t.jobs[i]? = some job) (h : run job (t.stage i) out s) :
      Advance t (t.advance i out s)

inductive Step : Tasks ρ σ ε → Tasks ρ σ ε → Prop
  | spawn (t : Tasks ρ σ ε) (job : ρ) : Step t (t.spawn start job)
  | advance {t t' : Tasks ρ σ ε} (h : Advance run t t') : Step t t'

/-- The entries of one task. -/
def emitted (t : Tasks ρ σ ε) (i : Nat) : List ε := (t.log.filter (·.1 = i)).map (·.2)

@[simp] theorem emitted_spawn (t : Tasks ρ σ ε) (job : ρ) (i : Nat) :
    (t.spawn start job).emitted i = t.emitted i := rfl

theorem emitted_advance_self (t : Tasks ρ σ ε) (i : Nat) (out : Option ε) (s : σ) :
    (t.advance i out s).emitted i = t.emitted i ++ out.toList := by
  cases out <;> simp [emitted, advance]

theorem emitted_advance_of_ne (t : Tasks ρ σ ε) {i j : Nat} (h : j ≠ i) (out : Option ε) (s : σ) :
    (t.advance i out s).emitted j = t.emitted j := by
  cases out <;> simp [emitted, advance, h.symm]

theorem mem_emitted {t : Tasks ρ σ ε} {i : Nat} {e : ε} : e ∈ t.emitted i ↔ (i, e) ∈ t.log := by
  simp [emitted]

/-- Each task keeps `P`, which relates its job, its stage and its entries. -/
structure Each (P : ρ → σ → List ε → Prop) (t : Tasks ρ σ ε) : Prop where
  started : ∀ e ∈ t.log, e.1 < t.jobs.length
  keeps : ∀ i job, t.jobs[i]? = some job → P job (t.stage i) (t.emitted i)

theorem Each.emitted_eq_nil {P : ρ → σ → List ε → Prop} {t : Tasks ρ σ ε} (ht : t.Each P) {i : Nat}
    (hi : t.jobs.length ≤ i) : t.emitted i = [] := by
  rw [emitted, List.map_eq_nil_iff, List.filter_eq_nil_iff]
  intro e he
  have hlt := ht.started e he
  simp only [decide_eq_true_eq]
  omega

theorem Each.length_emitted_le {P : ρ → σ → List ε → Prop} {n : Nat}
    (hP : ∀ job s es, P job s es → es.length ≤ n) {t : Tasks ρ σ ε} (ht : t.Each P) (i : Nat) :
    (t.emitted i).length ≤ n := by
  by_cases hi : i < t.jobs.length
  · exact hP _ _ _ (ht.keeps i _ (List.getElem?_eq_getElem hi))
  · rw [ht.emitted_eq_nil (by omega)]
    exact Nat.zero_le n

theorem Each.of_empty (P : ρ → σ → List ε → Prop) : (empty start : Tasks ρ σ ε).Each P := by
  constructor
  · intro e he
    cases he
  · intro i job hjob
    simp [empty] at hjob

variable {run start}

theorem Each.spawn {P : ρ → σ → List ε → Prop} {job : ρ} (hstart : P job start [])
    {t : Tasks ρ σ ε} (ht : t.Each P) : (t.spawn start job).Each P := by
  refine ⟨fun e he => ?_, fun i job' hi => ?_⟩
  · have hlt := ht.started e he
    simp only [Tasks.spawn, List.length_append, List.length_singleton]
    omega
  · rw [emitted_spawn]
    simp only [Tasks.spawn] at hi ⊢
    by_cases hlast : i = t.jobs.length
    · subst hlast
      obtain rfl : job = job' := by simpa using hi
      -- the number is new, so the log has no entry of the task
      rw [Function.update_self, ht.emitted_eq_nil le_rfl]
      exact hstart
    · rw [Function.update_of_ne hlast]
      have hold : t.jobs[i]? = some job' := by
        have hlt : i < (t.jobs ++ [job]).length := (List.getElem?_eq_some_iff.mp hi).1
        rw [List.length_append, List.length_singleton] at hlt
        rwa [List.getElem?_append_left (by omega)] at hi
      exact ht.keeps i job' hold

theorem Each.advance {P : ρ → σ → List ε → Prop}
    (hrun : ∀ job s es out s', P job s es → run job s out s' → P job s' (es ++ out.toList))
    {t t' : Tasks ρ σ ε} (h : Advance run t t') (ht : t.Each P) : t'.Each P := by
  cases h with
  | @advance i job out s hjob hrn =>
    refine ⟨fun e he => ?_, fun j job' hj => ?_⟩
    · simp only [Tasks.advance, List.mem_append, List.mem_map] at he
      rcases he with he | ⟨_, _, rfl⟩
      · exact ht.started e he
      · exact (List.getElem?_eq_some_iff.mp hjob).1
    · by_cases hij : j = i
      · subst hij
        obtain rfl : job = job' := by simpa [Tasks.advance, hjob] using hj
        rw [emitted_advance_self]
        simp only [Tasks.advance, Function.update_self]
        exact hrun job _ _ out s (ht.keeps j job hjob) hrn
      · rw [emitted_advance_of_ne t hij]
        simp only [Tasks.advance, Function.update_of_ne hij]
        exact ht.keeps j job' hj

/-- The step rule: what the automaton keeps along its own steps, the
interleaving keeps for every task. -/
theorem Each.step {P : ρ → σ → List ε → Prop} (hstart : ∀ job, P job start [])
    (hrun : ∀ job s es out s', P job s es → run job s out s' → P job s' (es ++ out.toList))
    {t t' : Tasks ρ σ ε} (h : Step run start t t') (ht : t.Each P) : t'.Each P := by
  cases h with
  | spawn job => exact ht.spawn (hstart job)
  | advance h => exact ht.advance hrun h

/-- The run rule. -/
theorem Each.of_reachable {P : ρ → σ → List ε → Prop} (hstart : ∀ job, P job start [])
    (hrun : ∀ job s es out s', P job s es → run job s out s' → P job s' (es ++ out.toList))
    {t : Tasks ρ σ ε} (h : Relation.ReflTransGen (Step run start) (empty start) t) : t.Each P :=
  invariant_of_reachable h (Each.of_empty start P) fun _ _ => Each.step hstart hrun

/-! ## One task on its own -/

/-- A run of an automaton, with the entries it leaves. -/
inductive LocalRun (step : σ → Option ε → σ → Prop) : σ → List ε → σ → Prop
  | refl (s : σ) : LocalRun step s [] s
  | step {s s' s'' : σ} {out : Option ε} {es : List ε} (h : step s out s')
      (hrun : LocalRun step s' es s'') : LocalRun step s (out.toList ++ es) s''

theorem LocalRun.trans {step : σ → Option ε → σ → Prop} {s s' s'' : σ} {es es' : List ε}
    (h : LocalRun step s es s') (h' : LocalRun step s' es' s'') :
    LocalRun step s (es ++ es') s'' := by
  induction h with
  | refl => exact h'
  | step hstep _ ih =>
    rw [List.append_assoc]
    exact .step hstep (ih h')

/-- A task can run on its own in any state, the other tasks standing still. -/
theorem LocalRun.reaches {t : Tasks ρ σ ε} {i : Nat} {job : ρ} {es : List ε} {s : σ}
    (hjob : t.jobs[i]? = some job) (h : LocalRun (run job) (t.stage i) es s) :
    ∃ t', Relation.ReflTransGen (Advance run) t t' ∧ t'.jobs = t.jobs ∧ t'.stage i = s ∧
      t'.log = t.log ++ es.map (fun e => (i, e)) ∧ ∀ j, j ≠ i → t'.stage j = t.stage j := by
  generalize hs : t.stage i = s₀ at h
  induction h generalizing t with
  | refl s₀ => exact ⟨t, .refl, rfl, hs, by simp, fun _ _ => rfl⟩
  | @step s₀ s₁ s₂ out es hstep _ ih =>
    subst hs
    obtain ⟨t', hreach, hjobs, hstage, hlog, hothers⟩ :=
      ih (t := t.advance i out s₁) hjob (by simp [Tasks.advance])
    refine ⟨t', hreach.head (.advance hjob hstep), hjobs, hstage, ?_, fun j hj => ?_⟩
    · rw [hlog]
      simp [Tasks.advance]
    · rw [hothers j hj]
      exact Function.update_of_ne hj _ _

/-- A new task can run on its own. -/
theorem LocalRun.spawn_reaches (t : Tasks ρ σ ε) {job : ρ} {es : List ε} {s : σ}
    (h : LocalRun (run job) start es s) :
    ∃ t', Relation.ReflTransGen (Advance run) (t.spawn start job) t' ∧
      t'.jobs = t.jobs ++ [job] ∧ t'.stage t.jobs.length = s ∧
      t'.log = t.log ++ es.map (fun e => (t.jobs.length, e)) ∧
      ∀ j, j ≠ t.jobs.length → t'.stage j = t.stage j := by
  have hjob : (t.spawn start job).jobs[t.jobs.length]? = some job := by simp [Tasks.spawn]
  have hstage : (t.spawn start job).stage t.jobs.length = start := by simp [Tasks.spawn]
  rw [← hstage] at h
  obtain ⟨t', hreach, hjobs, hlast, hlog, hothers⟩ := h.reaches hjob
  refine ⟨t', hreach, hjobs, hlast, hlog, fun j hj => ?_⟩
  rw [hothers j hj]
  exact Function.update_of_ne hj _ _

/-- A task can run from its start to its end while another one stands still in the middle of
its own run. -/
theorem LocalRun.nested {outer inner : ρ} {es₁ es₂ es : List ε} {s₁ s s' : σ}
    (hfirst : LocalRun (run outer) start es₁ s₁) (hinner : LocalRun (run inner) start es s')
    (hrest : LocalRun (run outer) s₁ es₂ s) :
    ∃ t, Relation.ReflTransGen (Step run start) (empty start) t ∧ t.jobs = [outer, inner] ∧
      t.stage 0 = s ∧ t.stage 1 = s' ∧
      t.log = es₁.map (fun e => (0, e)) ++ es.map (fun e => (1, e)) ++
        es₂.map fun e => (0, e) := by
  have hsteps : ∀ {t t' : Tasks ρ σ ε}, Relation.ReflTransGen (Advance run) t t' →
      Relation.ReflTransGen (Step run start) t t' :=
    fun h => Relation.ReflTransGen.mono (fun _ _ hstep => Step.advance hstep) _ _ h
  obtain ⟨t₁, hreach₁, hjobs₁, hstage₁, hlog₁, -⟩ := hfirst.spawn_reaches (empty start)
  obtain ⟨t₂, hreach₂, hjobs₂, hstage₂, hlog₂, hothers₂⟩ := hinner.spawn_reaches t₁
  have hlen : t₁.jobs.length = 1 := by rw [hjobs₁]; rfl
  have hjobs : t₂.jobs = [outer, inner] := by rw [hjobs₂, hjobs₁]; rfl
  rw [hlen] at hstage₂ hlog₂ hothers₂
  have hwaits : t₂.stage 0 = s₁ := (hothers₂ 0 Nat.zero_ne_one).trans hstage₁
  rw [← hwaits] at hrest
  obtain ⟨t, hreach, hjobs', hstage, hlog, hothers⟩ :=
    hrest.reaches (show t₂.jobs[0]? = some outer by rw [hjobs]; rfl)
  refine ⟨t, ?_, hjobs'.trans hjobs, hstage, (hothers 1 Nat.one_ne_zero).trans hstage₂, ?_⟩
  · exact (((hsteps hreach₁).head (.spawn _ outer)).trans
      ((hsteps hreach₂).head (.spawn t₁ inner))).trans (hsteps hreach)
  · rw [hlog, hlog₂, hlog₁]
    rfl

/-- Tasks can run one after the other. -/
theorem LocalRun.serial {entries : ρ → List ε} {last : σ}
    (h : ∀ job, LocalRun (run job) start (entries job) last) (jobs : List ρ) :
    ∃ t, Relation.ReflTransGen (Step run start) (empty start) t ∧ t.jobs = jobs ∧
      (∀ i < jobs.length, t.stage i = last) ∧
      t.log = jobs.zipIdx.flatMap fun job => (entries job.1).map fun e => (job.2, e) := by
  induction jobs using List.reverseRecOn with
  | nil => exact ⟨empty start, .refl, rfl, fun i hi => absurd hi (Nat.not_lt_zero i), rfl⟩
  | append_singleton jobs job ih =>
    obtain ⟨t, hreach, rfl, hstage, hlog⟩ := ih
    obtain ⟨t', hserved, hjobs, hlast, hlog', hothers⟩ := (h job).spawn_reaches t
    have hserve : Relation.ReflTransGen (Step run start) (t.spawn start job) t' :=
      Relation.ReflTransGen.mono (fun _ _ hstep => Step.advance hstep) _ _ hserved
    refine ⟨t', hreach.trans (hserve.head (.spawn t job)), hjobs, fun i hi => ?_, ?_⟩
    · rw [List.length_append, List.length_singleton] at hi
      by_cases hi' : i = t.jobs.length
      · rw [hi', hlast]
      · rw [hothers i hi']
        exact hstage i (by omega)
    · rw [hlog', hlog, List.zipIdx_append, List.flatMap_append]
      simp

/-! ## Counting entries against jobs -/

theorem length_filter_range (p : ρ → Bool) (jobs : List ρ) :
    ((List.range jobs.length).filter fun i => (jobs[i]?).any p).length = jobs.countP p := by
  induction jobs using List.reverseRecOn with
  | nil => rfl
  | append_singleton jobs job ih =>
    have hold : (List.range jobs.length).filter (fun i => ((jobs ++ [job])[i]?).any p) =
        (List.range jobs.length).filter fun i => (jobs[i]?).any p := by
      apply List.filter_congr
      intro i hi
      rw [List.getElem?_append_left (List.mem_range.mp hi)]
    rw [List.length_append, List.length_singleton, List.range_succ, List.filter_append,
      List.length_append, hold, ih, List.countP_append]
    cases hp : p job <;> simp [hp]

/-- Where no task leaves more than one entry, the entries of a kind of job are
at most the jobs of that kind. -/
theorem Each.countP_log_le {P : ρ → σ → List ε → Prop} {t : Tasks ρ σ ε} (ht : t.Each P)
    (hP : ∀ job s es, P job s es → es.length ≤ 1) (p : ρ → Bool) :
    t.log.countP (fun e => (t.jobs[e.1]?).any p) ≤ t.jobs.countP p := by
  have hnodup : (t.log.map (·.1)).Nodup := by
    rw [List.nodup_iff_count_le_one]
    intro i
    have hcount : (t.log.map (·.1)).count i = (t.emitted i).length := by
      rw [emitted, List.length_map, List.count_eq_countP, List.countP_map,
        List.countP_eq_length_filter]
      congr 1
    rw [hcount]
    exact ht.length_emitted_le hP i
  have hsub : (t.log.filter fun e => (t.jobs[e.1]?).any p).map (·.1) ⊆
      (List.range t.jobs.length).filter fun i => (t.jobs[i]?).any p := by
    intro i hi
    obtain ⟨e, he, rfl⟩ := List.mem_map.mp hi
    obtain ⟨hlog, hp⟩ := List.mem_filter.mp he
    exact List.mem_filter.mpr ⟨List.mem_range.mpr (ht.started e hlog), hp⟩
  have hkind : ((t.log.filter fun e => (t.jobs[e.1]?).any p).map (·.1)).Nodup :=
    hnodup.sublist (List.filter_sublist.map _)
  have hle := (List.subperm_of_subset hkind hsub).length_le
  rw [List.length_map, length_filter_range] at hle
  rwa [List.countP_eq_length_filter]

/-! ## The log as a whole -/

/-- A log is its entries task by task. -/
theorem log_perm_range (log : List (Nat × ε)) (n : Nat) :
    (log.filter (·.1 < n)).map (·.2) |>.Perm
      ((List.range n).flatMap fun i => (log.filter (·.1 = i)).map (·.2)) := by
  induction n with
  | zero => simp
  | succ n ih =>
    have hsplit := List.filter_append_perm (fun e : Nat × ε => decide (e.1 < n))
      (log.filter (·.1 < n + 1))
    have hlow : (log.filter (·.1 < n + 1)).filter (fun e => decide (e.1 < n)) =
        log.filter (·.1 < n) := by
      rw [List.filter_filter]
      apply List.filter_congr
      intro e _
      simp only [← Bool.decide_and, decide_eq_decide]
      omega
    have hlast : (log.filter (·.1 < n + 1)).filter (fun e => !decide (e.1 < n)) =
        log.filter (·.1 = n) := by
      rw [List.filter_filter]
      apply List.filter_congr
      intro e _
      simp only [← decide_not, ← Bool.decide_and, decide_eq_decide]
      omega
    rw [hlow, hlast] at hsplit
    rw [List.range_succ, List.flatMap_append, List.flatMap_singleton]
    apply (hsplit.symm.map _).trans
    rw [List.map_append]
    exact ih.append_right _

theorem flatMap_range_length {f : ρ → List ε} {jobs : List ρ} {g : Nat → List ε}
    (h : ∀ i job, jobs[i]? = some job → g i = f job) :
    (List.range jobs.length).flatMap g = jobs.flatMap f := by
  induction jobs using List.reverseRecOn with
  | nil => rfl
  | append_singleton jobs job ih =>
    have hold : (List.range jobs.length).flatMap g = jobs.flatMap f := by
      refine ih fun i job' hi => h i job' ?_
      rw [List.getElem?_append_left (List.getElem?_eq_some_iff.mp hi).1, hi]
    rw [List.length_append, List.length_singleton, List.range_succ, List.flatMap_append, hold,
      List.flatMap_append, List.flatMap_singleton, List.flatMap_singleton,
      h jobs.length job (by simp)]

/-- Where each task has left the entries of its job, the log has those of all jobs. -/
theorem Each.log_perm {P : ρ → σ → List ε → Prop} {t : Tasks ρ σ ε} (ht : t.Each P)
    {entries : ρ → List ε} (h : ∀ i job, t.jobs[i]? = some job → t.emitted i = entries job) :
    (t.log.map (·.2)).Perm (t.jobs.flatMap entries) := by
  have hall : t.log.filter (·.1 < t.jobs.length) = t.log :=
    List.filter_eq_self.mpr fun e he => decide_eq_true (ht.started e he)
  have hperm := log_perm_range t.log t.jobs.length
  rw [hall] at hperm
  exact hperm.trans (.of_eq (flatMap_range_length h))

end Tasks

end TelemetryApi
