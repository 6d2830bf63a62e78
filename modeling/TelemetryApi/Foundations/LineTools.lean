import Mathlib.Data.List.Infix
import Mathlib.Data.List.Sort
import Mathlib.Data.List.TakeWhile

/-!
# Tools that read text line by line

A pattern that asks for some text and then, anywhere behind it, for something else;
the fields between separators; and the sort by number.
-/

namespace TelemetryApi

section FollowedBy

variable {α : Type*} [DecidableEq α] {p : List α → Bool}

/-- The text occurs in the line, and what is behind it satisfies the predicate. -/
def followedBy (text : List α) (p : List α → Bool) (line : List α) : Bool :=
  line.tails.any fun rest => text.isPrefixOf rest && p (rest.drop text.length)

theorem followedBy_cons (text : List α) (p : List α → Bool) (a : α) (line : List α) :
    followedBy text p (a :: line) =
      (text.isPrefixOf (a :: line) && p ((a :: line).drop text.length) ||
        followedBy text p line) := by
  rw [followedBy, List.tails, List.any_cons]
  rfl

theorem followedBy_iff {text line : List α} :
    followedBy text p line ↔ ∃ front back, line = front ++ (text ++ back) ∧ p back := by
  simp only [followedBy, List.any_eq_true, List.mem_tails, Bool.and_eq_true,
    List.isPrefixOf_iff_prefix]
  constructor
  · rintro ⟨rest, ⟨front, rfl⟩, ⟨back, rfl⟩, hp⟩
    rw [List.drop_left] at hp
    exact ⟨front, back, rfl, hp⟩
  · rintro ⟨front, back, rfl, hp⟩
    refine ⟨text ++ back, List.suffix_append _ _, List.prefix_append _ _, ?_⟩
    rwa [List.drop_left]

/-- A beginning without the first character of the text does not matter. -/
theorem followedBy_append_of_notMem {c : α} {front : List α} (h : c ∉ front)
    (text line : List α) :
    followedBy (c :: text) p (front ++ line) = followedBy (c :: text) p line := by
  induction front with
  | nil => rfl
  | cons a front ih =>
    have hne : (c == a) = false := beq_false_of_ne fun heq => h (heq ▸ List.mem_cons_self)
    rw [List.cons_append, followedBy_cons, List.isPrefixOf_cons_cons, hne, Bool.false_and,
      Bool.false_and, Bool.false_or, ih fun hmem => h (List.mem_cons_of_mem _ hmem)]

/-- A text whose first character does not come again does not overlap itself. -/
theorem isPrefixOf_append_self {c : α} {text : List α} (hc : c ∉ text) {front : List α}
    (hnil : front ≠ []) (hfront : ¬ c :: text <:+: front) (back : List α) :
    (c :: text).isPrefixOf (front ++ (c :: text ++ back)) = false := by
  rw [Bool.eq_false_iff, ne_eq, List.isPrefixOf_iff_prefix]
  rintro ⟨rest, hrest⟩
  obtain ⟨inner, hinner, -⟩ | ⟨inner, hinner, htail⟩ := List.append_eq_append_iff.mp hrest
  · exact hfront ⟨[], inner, hinner.symm⟩
  · -- what the text has behind `front` begins with the first character again
    cases front with
    | nil => exact hnil rfl
    | cons a front =>
      cases inner with
      | nil => exact hfront ⟨[], [], by simpa using hinner⟩
      | cons b inner =>
        obtain ⟨rfl, -⟩ := List.cons.inj htail
        obtain ⟨-, rfl⟩ := List.cons.inj hinner
        exact hc (List.mem_append_right _ List.mem_cons_self)

/-- Where the text occurs once, and the predicate holds of a line when it holds of an
end of it, what is behind that occurrence decides. -/
theorem followedBy_append_self {c : α} {text : List α} (hc : c ∉ text) {front : List α}
    (hfront : ¬ c :: text <:+: front) (hp : ∀ ⦃rest line⦄, rest <:+ line → p rest → p line)
    (back : List α) : followedBy (c :: text) p (front ++ (c :: text ++ back)) = p back := by
  induction front with
  | nil =>
    have hlater : followedBy (c :: text) p back → p back := by
      intro hback
      obtain ⟨before, rest, rfl, hrest⟩ := followedBy_iff.mp hback
      exact hp ((List.suffix_append _ _).trans (List.suffix_append _ _)) hrest
    rw [List.nil_append, List.cons_append, followedBy_cons, followedBy_append_of_notMem hc,
      ← List.cons_append, List.isPrefixOf_iff_prefix.mpr (List.prefix_append _ _),
      List.drop_left, Bool.true_and]
    cases hback : p back with
    | true => rfl
    | false => simpa [hback] using hlater
  | cons a front ih =>
    have hrest : ¬ c :: text <:+: front := fun hocc =>
      hfront (hocc.trans (List.suffix_cons a front).isInfix)
    have hhere := isPrefixOf_append_self hc (List.cons_ne_nil a front) hfront back
    rw [List.cons_append] at hhere ⊢
    rw [followedBy_cons, hhere, Bool.false_and, Bool.false_or, ih hrest]

end FollowedBy

section Fields

variable {α : Type*}

/-- The second of the fields that the separators leave. -/
def secondField (isSeparator : α → Bool) (line : List α) : List α :=
  (line.splitOnP isSeparator).getD 1 []

theorem secondField_append {isSeparator : α → Bool} {a b : α} {field : List α}
    (ha : isSeparator a) (hfield : ∀ x ∈ field, isSeparator x = false) (hb : isSeparator b)
    (rest : List α) : secondField isSeparator (a :: (field ++ b :: rest)) = field := by
  have hsplit : (a :: (field ++ b :: rest)).splitOnP isSeparator =
      [] :: field :: rest.splitOnP isSeparator := by
    rw [← List.nil_append (a :: _), List.splitOnP_append_cons_of_forall_mem (by simp) a ha,
      List.splitOnP_append_cons_of_forall_mem hfield b hb]
  rw [secondField, hsplit]
  rfl

end Fields

/-! ## The sort by number -/

/-- The number that the first digits are, behind blanks. -/
def numericValue (item : List Char) : Nat :=
  Nat.ofDigitChars 10 ((item.dropWhile Char.isWhitespace).takeWhile Char.isDigit) 0

theorem isWhitespace_of_isDigit {c : Char} (h : c.isDigit) : c.isWhitespace = false := by
  rw [Bool.eq_false_iff]
  intro hblank
  simp only [Char.isWhitespace, Bool.or_eq_true, decide_eq_true_eq] at hblank
  obtain ((rfl | rfl) | rfl) | rfl := hblank
  all_goals cases h

theorem numericValue_toDigits (n : Nat) : numericValue (Nat.toDigits 10 n) = n := by
  have hdigits : ∀ c ∈ Nat.toDigits 10 n, c.isDigit := fun c hc =>
    Nat.isDigit_of_mem_toDigits (by decide) (by decide) hc
  have hblank : (Nat.toDigits 10 n).dropWhile Char.isWhitespace = Nat.toDigits 10 n :=
    List.dropWhile_eq_self_iff.mpr fun _ => by
      rw [isWhitespace_of_isDigit (hdigits _ (List.getElem_mem _))]
      exact Bool.false_ne_true
  rw [numericValue, hblank, List.takeWhile_eq_self_iff.mpr hdigits, Nat.ofDigitChars_ten_toDigits]

/-- Blanks in front do not matter. -/
theorem numericValue_replicate_append (k : Nat) (item : List Char) :
    numericValue (List.replicate k ' ' ++ item) = numericValue item := by
  induction k with
  | zero => rfl
  | succ k ih => exact ih

/-- Highest number first. -/
def sortDescending (items : List (List Char)) : List (List Char) :=
  items.insertionSort fun a b => numericValue a ≥ numericValue b

theorem map_numericValue_sortDescending (items : List (List Char)) :
    (sortDescending items).map numericValue =
      (items.map numericValue).insertionSort (· ≥ ·) :=
  List.map_insertionSort _ _ numericValue items fun _ _ _ _ => Iff.rfl

end TelemetryApi
