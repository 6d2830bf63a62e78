import Mathlib.Data.List.ReduceOption

/-!
# Splitting a list by two complementary readings

A loop that files every element under one of two heads reads the list with two
partial functions, of which exactly one applies to each element.
-/

namespace TelemetryApi

variable {α β γ : Type} {f : α → Option β} {g : α → Option γ}

/-- Exactly one of the two functions applies to each element. -/
def Complementary (f : α → Option β) (g : α → Option γ) (l : List α) : Prop :=
  ∀ a ∈ l, (f a).isSome = !(g a).isSome

/-- Nothing is lost and nothing is counted twice. -/
theorem Complementary.length_add {l : List α} (h : Complementary f g l) :
    (l.filterMap f).length + (l.filterMap g).length = l.length := by
  induction l with
  | nil => rfl
  | cons a l ih =>
    have hrest := ih fun a ha => h a (List.mem_cons_of_mem _ ha)
    have hhead := h a List.mem_cons_self
    cases hf : f a with
    | none =>
      have hg : (g a).isSome := by simpa [hf] using hhead
      obtain ⟨c, hc⟩ := Option.isSome_iff_exists.mp hg
      rw [List.filterMap_cons_none hf, List.filterMap_cons_some hc, List.length_cons,
        List.length_cons]
      omega
    | some b =>
      have hg : g a = none := by simpa [hf] using hhead
      rw [List.filterMap_cons_some hf, List.filterMap_cons_none hg, List.length_cons,
        List.length_cons]
      omega

theorem reduceOption_map (f : α → Option β) (l : List α) :
    (l.map f).reduceOption = l.filterMap f :=
  List.filterMap_map

/-- What one reading reports of the elements, where it reports those that the other
one leaves out. -/
theorem filterMap_map_eq_filter {δ : Type} {label : α → δ} {shown : γ → δ} {l : List α}
    (h : ∀ a ∈ l, (g a).map shown = if (f a).isNone then some (label a) else none) :
    (l.filterMap g).map shown = (l.filter fun a => (f a).isNone).map label := by
  induction l with
  | nil => rfl
  | cons a l ih =>
    have ih := ih fun a ha => h a (List.mem_cons_of_mem _ ha)
    have hhead := h a List.mem_cons_self
    cases hf : f a with
    | none =>
      rw [hf, Option.isNone_none, if_pos rfl] at hhead
      obtain ⟨c, hc, hshown⟩ := Option.map_eq_some_iff.mp hhead
      simp [hf, hc, hshown, ih]
    | some b =>
      rw [hf, Option.isNone_some, if_neg Bool.false_ne_true, Option.map_eq_none_iff] at hhead
      simp [hf, hhead, ih]

/-- A loop that appends each reading to its own accumulator. -/
theorem foldl_append_readings (step : List β × List γ → α → List β × List γ)
    (hstep : ∀ acc a, step acc a = (acc.1 ++ (f a).toList, acc.2 ++ (g a).toList))
    (l : List α) (acc : List β × List γ) :
    l.foldl step acc = (acc.1 ++ l.filterMap f, acc.2 ++ l.filterMap g) := by
  induction l generalizing acc with
  | nil => simp
  | cons a l ih =>
    rw [List.foldl_cons, ih, hstep]
    cases hf : f a <;> cases hg : g a <;> simp [hf, hg]

end TelemetryApi
