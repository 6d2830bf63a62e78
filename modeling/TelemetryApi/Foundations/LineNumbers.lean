import TelemetryApi.Foundations.Lines

/-!
# Physical line numbers

The number of a line in a body is one more than the line breaks in front of it,
where a CR and the LF that follows it are one line break. Numbering the pieces of
`splitlines` agrees with this on every line that is not blank, whatever the
terminators are.
-/

namespace TelemetryApi

namespace Bytes

/-- The line breaks of a text; `afterCR` holds where an LF would complete the last
of them. -/
structure Breaks where
  count : Nat
  afterCR : Bool

def Breaks.next (c : Breaks) (b : UInt8) : Breaks :=
  if b = 10 then ⟨if c.afterCR then c.count else c.count + 1, false⟩
  else if b = 13 then ⟨c.count + 1, true⟩
  else ⟨c.count, false⟩

def breaks (t : Bytes) : Breaks := t.foldl Breaks.next ⟨0, false⟩

/-- The number, from 1, of the line that begins behind the given bytes. -/
def lineNumber (before : Bytes) : Nat := (breaks before).count + 1

inductive Terminator where
  | lf
  | crlf
  | cr
  deriving DecidableEq

def Terminator.bytes : Terminator → Bytes
  | lf => [10]
  | crlf => [13, 10]
  | cr => [13]

section Join

variable {α : Type} (text : α → Bytes)

/-- Terminated lines and a last one without a terminator; the last is empty in a
body with a final terminator. -/
def joinLines : List (α × Terminator) → α → Bytes
  | [], last => text last
  | (line, t) :: rest, last => text line ++ t.bytes ++ joinLines rest last

/-- The lines with their numbers in the body. -/
def physicalLines (before : Bytes) : List (α × Terminator) → α → List (Nat × α)
  | [], last => [(lineNumber before, last)]
  | (line, t) :: rest, last =>
    (lineNumber before, line) :: physicalLines (before ++ text line ++ t.bytes) rest last

end Join

/-- A CR and the LF that terminates the empty line behind it are one line break. -/
example : physicalLines (fun line => line) [] [([97], .cr), ([], .lf), ([98], .crlf)] [99] =
    [(1, [97]), (2, []), (2, [98]), (3, [99])] := by decide

/-- The lines numbered one after the other. -/
def numbered (n : Nat) : List Bytes → List (Nat × Bytes)
  | [] => []
  | line :: rest => (n + 1, line) :: numbered (n + 1) rest

/-- The stripped lines that are not blank, with their numbers. -/
def contents (lines : List (Nat × Bytes)) : List (Nat × Bytes) :=
  lines.filterMap fun l => if strip l.2 = [] then none else some (l.1, strip l.2)

theorem contents_cons (l : Nat × Bytes) (ls : List (Nat × Bytes)) :
    contents (l :: ls) = (if strip l.2 = [] then [] else [(l.1, strip l.2)]) ++ contents ls := by
  by_cases h : strip l.2 = [] <;> simp [contents, h]

theorem contents_nil_cons (n : Nat) (ls : List (Nat × Bytes)) :
    contents ((n, []) :: ls) = contents ls := by
  have hnil : strip [] = [] := rfl
  rw [contents_cons, if_pos hnil, List.nil_append]

theorem breaks_append (t u : Bytes) : breaks (t ++ u) = u.foldl Breaks.next (breaks t) := by
  rw [breaks, List.foldl_append, ← breaks]

/-- A text without a line break leaves the count alone. -/
theorem foldl_next_noBreak {text : Bytes} (h : NoBreak text) (hne : text ≠ []) (c : Breaks) :
    text.foldl Breaks.next c = ⟨c.count, false⟩ := by
  induction text generalizing c with
  | nil => exact absurd rfl hne
  | cons b text ih =>
    have hb : ¬ IsBreak b := h b (by simp)
    have hnext : c.next b = ⟨c.count, false⟩ := by
      rw [Breaks.next, if_neg fun h => hb (Or.inl h), if_neg fun h => hb (Or.inr h)]
    rw [List.foldl_cons, hnext]
    cases text with
    | nil => rfl
    | cons c' text => exact ih (fun x hx => h x (by simp [hx])) (List.cons_ne_nil c' text) _

/-- Only an LF at the very beginning can complete a CR. -/
theorem splitlinesFrom_of_ne_nil {text : Bytes} (h : NoBreak text) (hne : text ≠ [])
    (afterCR : Bool) (r : Bytes) :
    splitlinesFrom afterCR (text ++ r) = splitlinesFrom false (text ++ r) := by
  cases text with
  | nil => exact absurd rfl hne
  | cons b text =>
    have hb : b ≠ 10 := fun h10 => h b (by simp) (Or.inl h10)
    simp only [List.cons_append, splitlinesFrom, if_neg hb]

/-- One terminated line is one piece, unless it is empty and its LF completes a CR. -/
theorem contents_numbered_line {text : Bytes} (h : NoBreak text) (t : Terminator) (c : Breaks)
    (r : Bytes) :
    contents (numbered c.count (splitlinesFrom c.afterCR (text ++ t.bytes ++ r))) =
      (if strip text = [] then [] else [(c.count + 1, strip text)]) ++
        contents (numbered ((text ++ t.bytes).foldl Breaks.next c).count
          (splitlinesFrom ((text ++ t.bytes).foldl Breaks.next c).afterCR r)) := by
  by_cases hne : text = []
  · subst hne
    have hnil : strip [] = [] := rfl
    obtain ⟨count, afterCR⟩ := c
    cases t <;> cases afterCR <;>
      simp [Terminator.bytes, splitlinesFrom, numbered, contents_nil_cons, Breaks.next, hnil]
  · rw [List.append_assoc, splitlinesFrom_of_ne_nil h hne, List.foldl_append,
      foldl_next_noBreak h hne]
    cases t with
    | lf =>
      rw [Terminator.bytes, List.singleton_append, splitlinesFrom_append_break h (Or.inl rfl),
        numbered, contents_cons]
      rfl
    | crlf =>
      rw [Terminator.bytes, List.cons_append, splitlinesFrom_append_break h (Or.inr rfl),
        numbered, contents_cons]
      rfl
    | cr =>
      rw [Terminator.bytes, List.singleton_append, splitlinesFrom_append_break h (Or.inr rfl),
        numbered, contents_cons]
      rfl

/-- Behind any bytes, the numbered pieces of a joined body are its lines with their
numbers in the body, blank ones aside. -/
theorem contents_numbered_joinLines {α : Type} {text : α → Bytes} (before : Bytes)
    {lines : List (α × Terminator)} {last : α} (hlines : ∀ l ∈ lines, NoBreak (text l.1))
    (hlast : NoBreak (text last)) :
    contents (numbered (breaks before).count
        (splitlinesFrom (breaks before).afterCR (joinLines text lines last))) =
      contents ((physicalLines text before lines last).map fun l => (l.1, text l.2)) := by
  -- on the lines; the count of line breaks is the invariant
  induction lines generalizing before with
  | nil =>
    rw [joinLines, physicalLines, lineNumber, List.map_singleton]
    generalize text last = l at hlast
    by_cases hne : l = []
    · subst hne
      rw [contents_nil_cons]
      rfl
    · rw [splitlinesFrom_noBreak hlast hne]
      rfl
  | cons l rest ih =>
    obtain ⟨line, t⟩ := l
    have hline : NoBreak (text line) := hlines (line, t) List.mem_cons_self
    have hrest := ih (before ++ (text line ++ t.bytes))
      fun l hl => hlines l (List.mem_cons_of_mem _ hl)
    rw [breaks_append] at hrest
    rw [joinLines, contents_numbered_line hline, hrest, physicalLines, List.map_cons,
      contents_cons, lineNumber, List.append_assoc]

/-- Every body is such a joined one. -/
theorem exists_joinLines (t : Bytes) : ∃ lines last, (∀ l ∈ lines, NoBreak l.1) ∧ NoBreak last ∧
    joinLines (fun line => line) lines last = t := by
  induction t using lineInduction with
  | last l hl => exact ⟨[], l, by simp, hl, rfl⟩
  | line l b r hl hb ih =>
    obtain ⟨lines, last, hlines, hlast, rfl⟩ := ih
    obtain ⟨t, ht⟩ : ∃ t : Terminator, t.bytes = [b] := by
      rcases hb with rfl | rfl
      · exact ⟨.lf, rfl⟩
      · exact ⟨.cr, rfl⟩
    refine ⟨(l, t) :: lines, last, ?_, hlast, ?_⟩
    · rintro l' hl'
      rcases List.mem_cons.mp hl' with rfl | hl'
      · exact hl
      · exact hlines l' hl'
    · rw [joinLines, ht, List.append_assoc, List.singleton_append]

end Bytes

end TelemetryApi
