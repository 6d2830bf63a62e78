import Mathlib.Data.List.Sort

/-!
# Editing a list through the numbers of its entries

A listing numbers its entries from 1. Deleting entries one call at a time is safe with
the highest number first, since the entries in front of the deleted one keep theirs.
-/

namespace TelemetryApi

open scoped List

variable {α : Type*}

/-- The entry with the number is removed. No entry has the number 0. -/
def deleteNumber (l : List α) : Nat → List α
  | 0 => l
  | n + 1 => l.eraseIdx n

/-- The numbers of the entries that satisfy the predicate. -/
def numbersOf (p : α → Bool) (l : List α) : List Nat :=
  ((l.zipIdx 1).filter (p ·.1)).map (·.2)

theorem numbersOf_cons (p : α → Bool) (a : α) (l : List α) :
    numbersOf p (a :: l) = (if p a then [1] else []) ++ (numbersOf p l).map (· + 1) := by
  have hrest : ((l.zipIdx 2).filter (p ·.1)).map (·.2) = (numbersOf p l).map (· + 1) := by
    rw [List.zipIdx_succ, List.filter_map, List.map_map, numbersOf, List.map_map]
    rfl
  rw [numbersOf, List.zipIdx_cons, List.filter_cons, ← hrest]
  split_ifs
  · rfl
  · rfl

theorem numbersOf_sublist (p : α → Bool) (l : List α) :
    numbersOf p l <+ List.range' 1 l.length := by
  rw [← List.zipIdx_map_snd 1 l]
  exact List.filter_sublist.map _

theorem pos_of_mem_numbersOf {p : α → Bool} {l : List α} {n : Nat} (h : n ∈ numbersOf p l) :
    0 < n :=
  (List.mem_range'_1.mp ((numbersOf_sublist p l).mem h)).1

theorem pairwise_numbersOf (p : α → Bool) (l : List α) : (numbersOf p l).Pairwise (· < ·) :=
  (List.pairwise_lt_range' (s := 1)).sublist (numbersOf_sublist p l)

/-- Behind the first entry the numbers are one higher. -/
theorem foldl_deleteNumber_cons (a : α) {numbers : List Nat} (h : ∀ n ∈ numbers, 0 < n)
    (l : List α) :
    (numbers.map (· + 1)).foldl deleteNumber (a :: l) = a :: numbers.foldl deleteNumber l := by
  induction numbers generalizing l with
  | nil => rfl
  | cons n numbers ih =>
    obtain ⟨m, rfl⟩ := Nat.exists_eq_add_one.mpr (h n List.mem_cons_self)
    exact ih (fun n hn => h n (List.mem_cons_of_mem _ hn)) (l.eraseIdx m)

/-- Deleting the entries of a kind by their numbers, with the highest first, leaves the
entries of the other kind. -/
theorem foldl_deleteNumber_numbersOf (p : α → Bool) (l : List α) :
    (numbersOf p l).reverse.foldl deleteNumber l = l.filter (! p ·) := by
  induction l with
  | nil => rfl
  | cons a l ih =>
    have hpos : ∀ n ∈ (numbersOf p l).reverse, 0 < n := fun n hn =>
      pos_of_mem_numbersOf (List.mem_reverse.mp hn)
    rw [numbersOf_cons, List.reverse_append, List.foldl_append, ← List.map_reverse,
      foldl_deleteNumber_cons a hpos, ih, List.filter_cons]
    cases p a with
    | true => rfl
    | false => rfl

/-- A decreasing arrangement of the numbers is the reversed list. -/
theorem insertionSort_numbersOf (p : α → Bool) (l : List α) :
    (numbersOf p l).insertionSort (· ≥ ·) = (numbersOf p l).reverse := by
  have hreversed : (numbersOf p l).reverse.Pairwise (· ≥ ·) :=
    List.pairwise_reverse.mpr ((pairwise_numbersOf p l).imp Nat.le_of_lt)
  apply List.Perm.eq_of_pairwise' (List.pairwise_insertionSort (· ≥ ·) _) hreversed
  exact (List.perm_insertionSort _ _).trans (List.reverse_perm _).symm

/-- A choice made before another one loses nothing of it exactly when it keeps all that
the other one takes. -/
theorem filter_filter_eq_iff (p q : α → Bool) (l : List α) :
    (l.filter q).filter p = l.filter p ↔ ∀ a ∈ l, p a → q a := by
  constructor
  · intro h a ha hp
    have hmem : a ∈ (l.filter q).filter p := h ▸ List.mem_filter.mpr ⟨ha, hp⟩
    exact (List.mem_filter.mp (List.mem_filter.mp hmem).1).2
  · intro h
    rw [List.filter_filter]
    apply List.filter_congr
    intro a ha
    cases hp : p a with
    | true => exact (Bool.true_and _).trans (h a ha hp)
    | false => exact Bool.false_and _

/-- Putting other entries behind those that remain of a list gives the list again
exactly when they are the entries that were taken out, which stood at its end. -/
theorem filter_not_append_eq_iff {p : α → Bool} {l back : List α} :
    l.filter (! p ·) ++ back = l ↔
      l.filter (! p ·) ++ l.filter p = l ∧ back = l.filter p := by
  constructor
  · intro h
    have hback : back.filter (! p ·) = [] := by
      have hkept := congrArg (List.filter (! p ·)) h
      rw [List.filter_append, List.filter_filter] at hkept
      simpa using hkept
    have hall : back.filter p = back := by
      apply List.filter_eq_self.mpr
      intro a ha
      simpa using List.filter_eq_nil_iff.mp hback a ha
    have htaken : back = l.filter p := by
      have hp := congrArg (List.filter p) h
      rw [List.filter_append, List.filter_filter, hall] at hp
      simpa using hp
    exact ⟨htaken ▸ h, htaken⟩
  · rintro ⟨h, rfl⟩
    exact h

section AddMissing

variable [DecidableEq α]

/-- An entry is added where the list has none like it. -/
def addMissing (l : List α) (a : α) : List α := if a ∈ l then l else l ++ [a]

/-- The entries that are added, one after the other. -/
def missing (l : List α) : List α → List α
  | [] => []
  | a :: added => if a ∈ l then missing l added else a :: missing (l ++ [a]) added

theorem foldl_addMissing (l added : List α) :
    added.foldl addMissing l = l ++ missing l added := by
  induction added generalizing l with
  | nil => exact (List.append_nil l).symm
  | cons a added ih =>
    rw [List.foldl_cons, addMissing, missing]
    split_ifs
    · exact ih l
    · rw [ih, List.append_assoc, List.singleton_append]

theorem mem_missing {l added : List α} {a : α} : a ∈ missing l added ↔ a ∈ added ∧ a ∉ l := by
  induction added generalizing l with
  | nil => simp [missing]
  | cons b added ih =>
    rw [missing]
    split_ifs with hb
    · rw [ih]
      grind
    · rw [List.mem_cons, ih]
      grind

theorem nodup_missing (l added : List α) : (missing l added).Nodup := by
  induction added generalizing l with
  | nil => exact .nil
  | cons a added ih =>
    rw [missing]
    split_ifs
    · exact ih l
    · apply (List.nodup_cons.mpr ⟨_, ih _⟩)
      intro hmem
      exact (mem_missing.mp hmem).2 (List.mem_append_right _ List.mem_cons_self)

/-- What is added is what the list lacks, without repetitions. -/
theorem missing_eq_eraseDups (l added : List α) :
    missing l added = (added.filter (· ∉ l)).eraseDups := by
  induction added generalizing l with
  | nil => rfl
  | cons a added ih =>
    rw [missing]
    split_ifs with ha
    · rw [ih, List.filter_cons_of_neg (by simpa using ha)]
    · have hrest : added.filter (· ∉ l ++ [a]) =
          (added.filter (· ∉ l)).filter fun b => !b == a := by
        rw [List.filter_filter]
        apply List.filter_congr
        intro b _
        simp [not_or, and_comm, beq_eq_decide]
      rw [ih, hrest, List.filter_cons_of_pos (by simpa using ha), List.eraseDups_cons]

theorem filter_missing_eq_self {p : α → Bool} {l added : List α} (h : ∀ a ∈ added, p a) :
    (missing l added).filter p = missing l added :=
  List.filter_eq_self.mpr fun a ha => h a (mem_missing.mp ha).1

end AddMissing

end TelemetryApi
