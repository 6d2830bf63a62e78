import TelemetryApi.Foundations.LineNumbers

/-!
# Cutting a text at its line ends

A text that is cut behind line breaks has the lines of its parts, one part after
the other. A cut between a CR and its LF would add a line.
-/

namespace TelemetryApi

namespace Bytes

/-- The end of the first text is the end of a line, whatever stands in front. -/
inductive CutAt : Bytes → Bytes → Prop
  | empty (tail : Bytes) : CutAt [] tail
  | lf (line tail : Bytes) : CutAt (line ++ [10]) tail
  | cr (line tail : Bytes) (h : tail.head? ≠ some 10) : CutAt (line ++ [13]) tail

/-- A text in parts, each of which but the last ends a line. -/
def LineParts : List Bytes → Prop
  | [] => True
  | part :: rest => (rest = [] ∨ CutAt part rest.flatten) ∧ LineParts rest

theorem splitlinesFrom_ne_nil {t : Bytes} (h : t ≠ []) : splitlinesFrom false t ≠ [] := by
  cases t with
  | nil => exact absurd rfl h
  | cons b t =>
    rw [splitlinesFrom, if_neg Bool.false_ne_true]
    split_ifs
    · exact List.cons_ne_nil _ _
    · exact List.cons_ne_nil _ _
    · cases splitlinesFrom false t with
      | nil => exact List.cons_ne_nil _ _
      | cons line lines => exact List.cons_ne_nil _ _

theorem consHead_append {b : UInt8} {lines : List Bytes} (h : lines ≠ []) (rest : List Bytes) :
    consHead b (lines ++ rest) = consHead b lines ++ rest := by
  cases lines with
  | nil => exact absurd rfl h
  | cons line lines => rfl

/-- Behind a line break the lines begin anew. -/
theorem splitlinesFrom_break (afterCR : Bool) (line : Bytes) {b : UInt8} (hb : IsBreak b)
    (tail : Bytes) :
    splitlinesFrom afterCR (line ++ b :: tail) =
      splitlinesFrom afterCR (line ++ [b]) ++ splitlinesFrom (b == 13) tail := by
  induction line generalizing afterCR with
  | nil =>
    obtain rfl | rfl := hb
    · cases afterCR <;> rfl
    · rfl
  | cons c line ih =>
    have hne : line ++ [b] ≠ [] := by simp
    simp only [List.cons_append, splitlinesFrom, ih]
    split_ifs
    · rfl
    · rfl
    · rfl
    · exact consHead_append (splitlinesFrom_ne_nil hne) _

theorem splitlinesFrom_of_head? {tail : Bytes} (h : tail.head? ≠ some 10) :
    splitlinesFrom true tail = splitlinesFrom false tail := by
  cases tail with
  | nil => rfl
  | cons b tail =>
    have hb : b ≠ 10 := fun he => h (congrArg some he)
    rw [splitlinesFrom, splitlinesFrom, if_neg hb, if_neg hb]

theorem splitlines_append {head tail : Bytes} (h : CutAt head tail) :
    splitlines (head ++ tail) = splitlines head ++ splitlines tail := by
  cases h with
  | empty => rfl
  | lf line =>
    rw [List.append_assoc, List.singleton_append]
    exact splitlinesFrom_break false line (.inl rfl) tail
  | cr line _ hhead =>
    rw [List.append_assoc, List.singleton_append, splitlines,
      splitlinesFrom_break false line (.inr rfl) tail]
    exact congrArg _ (splitlinesFrom_of_head? hhead)

theorem splitlines_flatten {parts : List Bytes} (h : LineParts parts) :
    splitlines parts.flatten = parts.flatMap splitlines := by
  induction parts with
  | nil => rfl
  | cons part rest ih =>
    obtain ⟨hcut, hrest⟩ := h
    rw [List.flatten_cons, List.flatMap_cons, ← ih hrest]
    obtain rfl | hcut := hcut
    · simp [splitlines, splitlinesFrom]
    · exact splitlines_append hcut

theorem contentLines_flatten {parts : List Bytes} (h : LineParts parts) :
    contentLines parts.flatten = parts.flatMap contentLines := by
  rw [contentLines, splitlines_flatten h, nonBlank, List.map_flatMap, List.filter_flatMap]
  rfl

theorem numbered_append (n : Nat) (lines lines' : List Bytes) :
    numbered n (lines ++ lines') = numbered n lines ++ numbered (n + lines.length) lines' := by
  induction lines generalizing n with
  | nil => rfl
  | cons line lines ih =>
    rw [List.cons_append, numbered, numbered, ih, List.length_cons, List.cons_append,
      Nat.add_right_comm, Nat.add_assoc n]

theorem contents_append (lines lines' : List (Nat × Bytes)) :
    contents (lines ++ lines') = contents lines ++ contents lines' :=
  List.filterMap_append

end Bytes

end TelemetryApi
