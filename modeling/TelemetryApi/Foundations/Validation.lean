import Mathlib.Logic.Basic

/-!
# Validation of compound values

A compound value is checked part by part. A refused part contributes its errors
and the check goes on with the next part, so that every error is reported; a
part whose check itself breaks off aborts the whole check, whatever the other
parts reported.
-/

namespace TelemetryApi

/-- The outcome of checking a value: the value, the errors of all refused
parts, or the cause that broke the check off. -/
inductive Validated (ε χ α : Type) where
  | ok (value : α)
  | invalid (errors : List ε)
  | aborted (cause : χ)

namespace Validated

variable {ε χ α β : Type}

def map (f : α → β) : Validated ε χ α → Validated ε χ β
  | .ok a => .ok (f a)
  | .invalid es => .invalid es
  | .aborted c => .aborted c

/-- Parts are checked from left to right. An abort on the left is final; errors
on the left do not keep the right part from being checked. -/
def app : Validated ε χ (α → β) → Validated ε χ α → Validated ε χ β
  | .aborted c, _ => .aborted c
  | .ok _, .aborted c => .aborted c
  | .ok _, .invalid es => .invalid es
  | .ok f, .ok a => .ok (f a)
  | .invalid _, .aborted c => .aborted c
  | .invalid es, .invalid es' => .invalid (es ++ es')
  | .invalid es, .ok _ => .invalid es

/-- The check never breaks off, whatever it finds wrong. -/
def Settles (v : Validated ε χ α) : Prop := ∀ c, v ≠ .aborted c

@[simp] theorem settles_ok (a : α) : (ok a : Validated ε χ α).Settles := by
  intro c h
  cases h

@[simp] theorem settles_invalid (es : List ε) : (invalid es : Validated ε χ α).Settles := by
  intro c h
  cases h

@[simp] theorem not_settles_aborted (c : χ) : ¬ (aborted c : Validated ε χ α).Settles :=
  fun h => h c rfl

@[simp] theorem map_eq_ok {f : α → β} {v : Validated ε χ α} {b : β} :
    v.map f = .ok b ↔ ∃ a, v = .ok a ∧ f a = b := by
  cases v <;> simp [map]

@[simp] theorem map_eq_aborted {f : α → β} {v : Validated ε χ α} {c : χ} :
    v.map f = .aborted c ↔ v = .aborted c := by
  cases v <;> simp [map]

@[simp] theorem app_eq_ok {vf : Validated ε χ (α → β)} {va : Validated ε χ α} {b : β} :
    vf.app va = .ok b ↔ ∃ f a, vf = .ok f ∧ va = .ok a ∧ f a = b := by
  cases vf <;> cases va <;> simp [app]

/-- A check whose left part settles breaks off exactly when its right part does. -/
theorem Settles.app_eq_aborted {vf : Validated ε χ (α → β)} {va : Validated ε χ α} {c : χ}
    (hf : vf.Settles) : vf.app va = .aborted c ↔ va = .aborted c := by
  cases vf with
  | ok f => cases va <;> simp [app]
  | invalid es => cases va <;> simp [app]
  | aborted c' => exact absurd hf (not_settles_aborted c')

theorem Settles.map {v : Validated ε χ α} (h : v.Settles) (f : α → β) : (v.map f).Settles := by
  intro c hc
  exact h c (map_eq_aborted.mp hc)

theorem Settles.app {vf : Validated ε χ (α → β)} {va : Validated ε χ α}
    (hf : vf.Settles) (ha : va.Settles) : (vf.app va).Settles := by
  intro c hc
  exact ha c ((hf.app_eq_aborted).mp hc)

end Validated

end TelemetryApi
