import Mathlib.Logic.Basic

/-!
# Runs of labelled steps

A run is the list of its steps, each with its label and the state behind it. A law that
is to hold in every state of a run is brought down to what the single steps do.
-/

namespace TelemetryApi

variable {σ ε : Type*}

/-- `P` holds of every step of the run. -/
def Along (P : σ → ε → σ → Prop) : σ → List (ε × σ) → Prop
  | _, [] => True
  | s, (e, s') :: rest => P s e s' ∧ Along P s' rest

/-- The state behind a run. -/
def endState (s : σ) (run : List (ε × σ)) : σ := run.foldl (fun _ x => x.2) s

namespace Along

variable {step cond : σ → ε → σ → Prop} {s : σ} {run : List (ε × σ)}

theorem nil (P : σ → ε → σ → Prop) (s : σ) : Along P s [] := trivial

theorem cons {P : σ → ε → σ → Prop} {e : ε} {s' : σ} (h : P s e s') (hrest : Along P s' run) :
    Along P s ((e, s') :: run) := ⟨h, hrest⟩

theorem append_iff {P : σ → ε → σ → Prop} {run' : List (ε × σ)} :
    Along P s (run ++ run') ↔ Along P s run ∧ Along P (endState s run) run' := by
  induction run generalizing s with
  | nil => exact ⟨fun h => ⟨trivial, h⟩, And.right⟩
  | cons x run ih =>
    show P s x.1 x.2 ∧ Along P x.2 (run ++ run') ↔ (P s x.1 x.2 ∧ Along P x.2 run) ∧ _
    rw [ih, and_assoc]
    rfl

/-- What the steps that meet the condition preserve holds in every state of a run whose
steps all meet it. -/
theorem states {I : σ → Prop} (hrun : Along step s run) (hcond : Along cond s run) (h : I s)
    (hstep : ∀ s e s', I s → step s e s' → cond s e s' → I s') : ∀ x ∈ run, I x.2 := by
  induction run generalizing s with
  | nil => simp
  | cons x rest ih =>
    obtain ⟨hx, hrest⟩ := hrun
    obtain ⟨hc, hcrest⟩ := hcond
    have hnext := hstep s x.1 x.2 h hx hc
    intro y hy
    rcases List.mem_cons.mp hy with rfl | hy
    · exact hnext
    · exact ih hrest hcrest hnext y hy

/-- A law that fails behind every step without the condition holds in every state of a
run only if its steps all meet the condition. -/
theorem of_states {I : σ → Prop} (hrun : Along step s run) (h : I s) (hall : ∀ x ∈ run, I x.2)
    (hstep : ∀ s e s', I s → step s e s' → I s' → cond s e s') : Along cond s run := by
  induction run generalizing s with
  | nil => exact nil cond s
  | cons x rest ih =>
    obtain ⟨hx, hrest⟩ := hrun
    have hnext := hall x List.mem_cons_self
    exact cons (hstep s x.1 x.2 h hx hnext)
      (ih hrest hnext fun y hy => hall y (List.mem_cons_of_mem x hy))

end Along

end TelemetryApi
