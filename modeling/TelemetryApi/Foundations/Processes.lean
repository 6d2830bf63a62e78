import Mathlib.Logic.Relation

/-!
# Processes over a shared state

Any number of processes read and change one shared state, one step at a time and in any
order. An invariant has a part for the shared state and one for each process, and a
process must not break what the others rely on.
-/

namespace TelemetryApi

/-- The shared state and the processes in the order of their start. -/
structure Processes (σ π : Type*) where
  shared : σ
  procs : List π

namespace Processes

variable {σ π : Type*} (start : σ → π → Prop) (run : σ × π → σ × π → Prop)

inductive Step : Processes σ π → Processes σ π → Prop
  | spawn (w : Processes σ π) (p : π) (h : start w.shared p) : Step w ⟨w.shared, w.procs ++ [p]⟩
  | run (w : Processes σ π) (i : Nat) {p p' : π} {s' : σ} (hp : w.procs[i]? = some p)
      (h : run (w.shared, p) (s', p')) : Step w ⟨s', w.procs.set i p'⟩

abbrev Reaches : Processes σ π → Processes σ π → Prop := Relation.ReflTransGen (Step start run)

/-- The invariant holds of the shared state and of each process. -/
def Holds (J : σ → Prop) (I : σ → π → Prop) (w : Processes σ π) : Prop :=
  J w.shared ∧ ∀ p ∈ w.procs, I w.shared p

/-- What one step has to keep: its own part of the invariant and those of the others. -/
structure Keeps (J : σ → Prop) (I : σ → π → Prop) : Prop where
  spawn : ∀ {s p}, J s → start s p → I s p
  own : ∀ {s p s' p'}, J s → I s p → run (s, p) (s', p') → J s' ∧ I s' p'
  others : ∀ {s p s' p' q}, J s → I s p → run (s, p) (s', p') → I s q → I s' q

variable {start run} {J : σ → Prop} {I : σ → π → Prop} {w w' : Processes σ π}

theorem Holds.step (hkeeps : Keeps start run J I) (hw : w.Holds J I) (h : Step start run w w') :
    w'.Holds J I := by
  cases h with
  | spawn p h =>
    refine ⟨hw.1, ?_⟩
    intro q hq
    obtain hq | hq := List.mem_append.mp hq
    · exact hw.2 q hq
    · rw [List.mem_singleton.mp hq]
      exact hkeeps.spawn hw.1 h
  | @run i p p' s' hp h =>
    have hI := hw.2 p (List.mem_of_getElem? hp)
    obtain ⟨hJ', hI'⟩ := hkeeps.own hw.1 hI h
    refine ⟨hJ', ?_⟩
    intro q hq
    obtain hq | rfl := List.mem_or_eq_of_mem_set hq
    · exact hkeeps.others hw.1 hI h (hw.2 q hq)
    · exact hI'

/-- The run rule. -/
theorem Holds.reaches (hkeeps : Keeps start run J I) (hw : w.Holds J I)
    (h : Reaches start run w w') : w'.Holds J I := by
  induction h with
  | refl => exact hw
  | tail _ hstep ih => exact ih.step hkeeps hstep

end Processes

end TelemetryApi
