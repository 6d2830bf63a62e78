import Mathlib.Data.List.DropRight

/-!
# Consecutive failures

A prober calls a target again and again. One success makes the target ready, and as
many failures in a row as the threshold says make it unready.
-/

namespace TelemetryApi

/-- How many elements at the end of the list satisfy the predicate. -/
def trailing {α : Type*} (p : α → Bool) (l : List α) : Nat := (l.rtakeWhile p).length

theorem trailing_concat {α : Type*} (p : α → Bool) (l : List α) (a : α) :
    trailing p (l ++ [a]) = if p a then trailing p l + 1 else 0 := by
  rw [trailing, trailing, List.rtakeWhile_concat]
  split_ifs
  · rw [List.length_append, List.length_singleton]
  · rfl

theorem trailing_map {α β : Type*} (p : β → Bool) (f : α → β) (l : List α) :
    trailing p (l.map f) = trailing (p ∘ f) l := by
  induction l using List.reverseRecOn with
  | nil => rfl
  | append_singleton l a ih =>
    rw [List.map_append, List.map_singleton, trailing_concat, trailing_concat, ih]
    rfl

theorem exists_concat_of_trailing_pos {α : Type*} {p : α → Bool} {l : List α}
    (h : 0 < trailing p l) : ∃ l' a, l = l' ++ [a] ∧ p a := by
  induction l using List.reverseRecOn with
  | nil => cases h
  | append_singleton l a _ =>
    rw [trailing_concat] at h
    split_ifs at h with ha
    · exact ⟨l, a, rfl, ha⟩
    · cases h

/-- Whether the target is ready, and how many of its last probes failed in a row. -/
structure Prober where
  ready : Bool
  failures : Nat

namespace Prober

/-- The outcome of one probe. -/
def observe (threshold : Nat) (k : Prober) (success : Bool) : Prober :=
  if success then ⟨true, 0⟩
  else ⟨k.ready && decide (k.failures + 1 < threshold), k.failures + 1⟩

/-- The outcomes of all probes in their order. -/
def run (threshold : Nat) (k : Prober) (probes : List Bool) : Prober :=
  probes.foldl (observe threshold) k

theorem run_concat (threshold : Nat) (k : Prober) (probes : List Bool) (success : Bool) :
    run threshold k (probes ++ [success]) = observe threshold (run threshold k probes) success := by
  rw [run, List.foldl_append]
  rfl

/-- The last probe alone decides after a success. -/
theorem run_concat_success (threshold : Nat) (k : Prober) (probes : List Bool) :
    run threshold k (probes ++ [true]) = ⟨true, 0⟩ := by
  rw [run_concat]
  rfl

theorem failures_run (threshold : Nat) (probes : List Bool) :
    (run threshold ⟨true, 0⟩ probes).failures = trailing (! ·) probes := by
  induction probes using List.reverseRecOn with
  | nil => rfl
  | append_singleton probes success ih =>
    rw [run_concat, trailing_concat, ← ih]
    cases success <;> rfl

/-- A target that was ready at the beginning is ready as long as fewer probes than the
threshold have failed since the last success. -/
theorem ready_run_iff {threshold : Nat} (hpos : 0 < threshold) (probes : List Bool) :
    (run threshold ⟨true, 0⟩ probes).ready ↔ trailing (! ·) probes < threshold := by
  induction probes using List.reverseRecOn with
  | nil => simpa [run, trailing] using hpos
  | append_singleton probes success ih =>
    rw [run_concat, trailing_concat]
    cases success with
    | true => simpa [observe] using hpos
    | false =>
      have hcount := failures_run threshold probes
      simp only [observe, Bool.false_eq_true, if_false, Bool.and_eq_true, decide_eq_true_eq, ih,
        hcount, Bool.not_false, if_true]
      omega

end Prober

end TelemetryApi
