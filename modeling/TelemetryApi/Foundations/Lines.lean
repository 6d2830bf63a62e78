import Mathlib.Data.List.DropRight

/-!
# Lines of a byte string

`bytes.splitlines` and `bytes.strip`, and the non-blank lines of a body. A body
is read line by line: `lineInduction` splits it at its first line break, and
every fact about its content lines follows the lines.
-/

namespace TelemetryApi

abbrev Bytes := List UInt8

namespace Bytes

/-- A line break of `bytes.splitlines`: LF or CR. -/
def IsBreak (b : UInt8) : Prop := b = 10 ∨ b = 13

instance (b : UInt8) : Decidable (IsBreak b) := inferInstanceAs (Decidable (_ ∨ _))

def NoBreak (l : Bytes) : Prop := ∀ b ∈ l, ¬ IsBreak b

instance (l : Bytes) : Decidable (NoBreak l) := List.decidableBAll _ l

/-- The whitespace `bytes.strip` removes: tab, LF, VT, FF, CR and space. -/
def isSpace (b : UInt8) : Bool := (9 ≤ b && b ≤ 13) || b == 32

def strip (l : Bytes) : Bytes := (l.dropWhile isSpace).rdropWhile isSpace

def consHead (b : UInt8) : List Bytes → List Bytes
  | [] => [[b]]
  | line :: rest => (b :: line) :: rest

/-- `afterCR` holds just behind a CR, whose line break an LF completes. -/
def splitlinesFrom : Bool → Bytes → List Bytes
  | _, [] => []
  | afterCR, b :: rest =>
    if b = 10 then
      if afterCR then splitlinesFrom false rest else [] :: splitlinesFrom false rest
    else if b = 13 then [] :: splitlinesFrom true rest
    else consHead b (splitlinesFrom false rest)

def splitlines (raw : Bytes) : List Bytes := splitlinesFrom false raw

/-- The stripped lines that are not empty. -/
def nonBlank (lines : List Bytes) : List Bytes := (lines.map strip).filter (· ≠ [])

def contentLines (raw : Bytes) : List Bytes := nonBlank (splitlines raw)

example : splitlines [97, 13, 10, 10, 98, 13] = [[97], [], [98]] := by decide

theorem isSpace_of_isBreak {b : UInt8} (h : IsBreak b) : isSpace b := by
  rcases h with rfl | rfl <;> decide

/-- Every body is a break-free text, or a line, its break and a shorter body. -/
theorem lineInduction {P : Bytes → Prop} (last : ∀ l, NoBreak l → P l)
    (line : ∀ l b r, NoBreak l → IsBreak b → P r → P (l ++ b :: r)) (t : Bytes) : P t := by
  -- on the length: what follows the first line break is shorter
  induction hn : t.length using Nat.strong_induction_on generalizing t with
  | _ n ih =>
    by_cases h : NoBreak t
    · exact last t h
    · have hsplit := List.takeWhile_append_dropWhile (p := fun b => decide (¬ IsBreak b)) (l := t)
      have hl : NoBreak (t.takeWhile fun b => decide (¬ IsBreak b)) := by
        intro b hb
        simpa using List.mem_takeWhile_imp hb
      cases hd : t.dropWhile (fun b => decide (¬ IsBreak b)) with
      | nil =>
        rw [hd, List.append_nil] at hsplit
        exact absurd (hsplit ▸ hl) h
      | cons b r =>
        have hb : IsBreak b := by
          have hnot := List.head_dropWhile_not (fun b => decide (¬ IsBreak b)) (l := t)
            (by rw [hd]; exact List.cons_ne_nil b r)
          simp only [hd, List.head_cons] at hnot
          simpa using hnot
        have hlen : r.length < n := by
          have := congrArg List.length hsplit
          rw [hd, List.length_append, List.length_cons] at this
          omega
        rw [hd] at hsplit
        rw [← hsplit]
        exact line _ b r hl hb (ih r.length hlen r rfl)

/-! ## Stripping -/

theorem strip_eq_nil_iff {l : Bytes} : strip l = [] ↔ ∀ b ∈ l, isSpace b := by
  rw [strip, List.rdropWhile_eq_nil_iff]
  constructor
  · intro h b hb
    by_contra hs
    have hmem : b ∈ l.dropWhile isSpace := by
      rw [← List.takeWhile_append_dropWhile (p := isSpace) (l := l), List.mem_append] at hb
      exact hb.resolve_left fun ht => hs (List.mem_takeWhile_imp ht)
    exact hs (h b hmem)
  · intro h b hb
    exact h b ((List.dropWhile_sublist isSpace).subset hb)

theorem strip_cons_space {b : UInt8} (hb : isSpace b) (l : Bytes) : strip (b :: l) = strip l := by
  rw [strip, List.dropWhile_cons_of_pos hb, ← strip]

theorem strip_append_spaces (l : Bytes) {w : Bytes} (hw : ∀ b ∈ w, isSpace b) :
    strip (l ++ w) = strip l := by
  induction w using List.reverseRecOn with
  | nil => rw [List.append_nil]
  | append_singleton w b ih =>
    have hb : isSpace b := hw b (by simp)
    rw [← ih fun c hc => hw c (by simp [hc]), ← List.append_assoc]
    rw [strip, strip, List.dropWhile_append]
    by_cases he : (l ++ w).dropWhile isSpace = []
    · simp [he, hb]
    · rw [if_neg (by simpa using he), List.rdropWhile_concat_pos _ _ _ hb]

theorem mem_of_mem_strip {l : Bytes} {b : UInt8} (h : b ∈ strip l) : b ∈ l :=
  (List.dropWhile_sublist isSpace).subset ((List.rdropWhile_prefix isSpace _).subset h)

/-- A text is its leading whitespace, its stripped text and its trailing whitespace. -/
theorem exists_strip (l : Bytes) : ∃ lead trail, l = lead ++ (strip l ++ trail) ∧
    (∀ b ∈ lead, isSpace b) ∧ ∀ b ∈ trail, isSpace b := by
  refine ⟨l.takeWhile isSpace, (l.dropWhile isSpace).rtakeWhile isSpace, ?_, ?_, ?_⟩
  · rw [strip, List.rdropWhile_append_rtakeWhile, List.takeWhile_append_dropWhile]
  · intro b hb
    exact List.mem_takeWhile_imp hb
  · intro b hb
    exact List.mem_rtakeWhile_imp hb

theorem not_isSpace_head_strip {l : Bytes} (h : strip l ≠ []) : ¬ isSpace ((strip l).head h) := by
  have hpre : strip l <+: l.dropWhile isSpace := List.rdropWhile_prefix isSpace _
  have hne : l.dropWhile isSpace ≠ [] := fun he => h (List.prefix_nil.mp (he ▸ hpre))
  rw [List.IsPrefix.head hpre h]
  simpa using List.head_dropWhile_not isSpace hne

theorem not_isSpace_getLast_strip {l : Bytes} (h : strip l ≠ []) :
    ¬ isSpace ((strip l).getLast h) :=
  List.rdropWhile_last_not isSpace _ h

theorem strip_strip (l : Bytes) : strip (strip l) = strip l := by
  by_cases h : strip l = []
  · rw [h]
    rfl
  · have hd : (strip l).dropWhile isSpace = strip l :=
      List.dropWhile_eq_self_iff.mpr fun hlen => by
        have := not_isSpace_head_strip h
        rwa [List.head_eq_getElem] at this
    conv_lhs => rw [strip, hd]
    exact List.rdropWhile_eq_self_iff.mpr fun _ => not_isSpace_getLast_strip h

/-! ## Content lines -/

theorem splitlinesFrom_noBreak {l : Bytes} (hl : NoBreak l) (hne : l ≠ []) (afterCR : Bool) :
    splitlinesFrom afterCR l = [l] := by
  induction l generalizing afterCR with
  | nil => exact absurd rfl hne
  | cons b l ih =>
    have hb : ¬ IsBreak b := hl b (by simp)
    have h10 : b ≠ 10 := fun h => hb (Or.inl h)
    have h13 : b ≠ 13 := fun h => hb (Or.inr h)
    rw [splitlinesFrom, if_neg h10, if_neg h13]
    cases l with
    | nil => rfl
    | cons c l =>
      rw [ih (fun x hx => hl x (by simp [hx])) (List.cons_ne_nil c l)]
      rfl

theorem splitlinesFrom_append_break {l : Bytes} (hl : NoBreak l) {b : UInt8} (hb : IsBreak b)
    (r : Bytes) : splitlinesFrom false (l ++ b :: r) = l :: splitlinesFrom (b == 13) r := by
  induction l with
  | nil => rcases hb with rfl | rfl <;> rfl
  | cons c l ih =>
    have hc : ¬ IsBreak c := hl c (by simp)
    rw [List.cons_append, splitlinesFrom, if_neg fun h => hc (Or.inl h),
      if_neg fun h => hc (Or.inr h), ih fun x hx => hl x (by simp [hx])]
    rfl

theorem nonBlank_cons (l : Bytes) (ls : List Bytes) :
    nonBlank (l :: ls) = (if strip l = [] then [] else [strip l]) ++ nonBlank ls := by
  by_cases h : strip l = [] <;> simp [nonBlank, h]

/-- The line break an LF completes behind a CR carries no content. -/
theorem nonBlank_splitlinesFrom (afterCR : Bool) (t : Bytes) :
    nonBlank (splitlinesFrom afterCR t) = contentLines t := by
  cases t with
  | nil => rfl
  | cons b t =>
    by_cases h : b = 10
    · subst h
      cases afterCR
      · rfl
      · have hnil : strip [] = [] := rfl
        simp [contentLines, splitlines, splitlinesFrom, nonBlank_cons, hnil]
    · simp [contentLines, splitlines, splitlinesFrom, h]

theorem contentLines_noBreak {l : Bytes} (hl : NoBreak l) :
    contentLines l = if strip l = [] then [] else [strip l] := by
  by_cases hne : l = []
  · subst hne
    rfl
  · rw [contentLines, splitlines, splitlinesFrom_noBreak hl hne, nonBlank_cons]
    simp [nonBlank]

theorem contentLines_append_break {l : Bytes} (hl : NoBreak l) {b : UInt8} (hb : IsBreak b)
    (r : Bytes) : contentLines (l ++ b :: r) =
      (if strip l = [] then [] else [strip l]) ++ contentLines r := by
  rw [contentLines, splitlines, splitlinesFrom_append_break hl hb, nonBlank_cons,
    nonBlank_splitlinesFrom]

theorem contentLines_eq_nil_iff {t : Bytes} : contentLines t = [] ↔ ∀ b ∈ t, isSpace b := by
  induction t using lineInduction with
  | last l hl =>
    rw [contentLines_noBreak hl, ← strip_eq_nil_iff]
    by_cases h : strip l = [] <;> simp [h]
  | line l b r hl hb ih =>
    rw [contentLines_append_break hl hb, List.append_eq_nil_iff, ih]
    have hline : (if strip l = [] then [] else [strip l]) = ([] : List Bytes) ↔
        ∀ c ∈ l, isSpace c := by
      rw [← strip_eq_nil_iff]
      by_cases h : strip l = [] <;> simp [h]
    rw [hline]
    simp only [List.mem_append, List.mem_cons]
    constructor
    · rintro ⟨h, h'⟩ c (hc | rfl | hc)
      · exact h c hc
      · exact isSpace_of_isBreak hb
      · exact h' c hc
    · intro h
      exact ⟨fun c hc => h c (Or.inl hc), fun c hc => h c (Or.inr (Or.inr hc))⟩

theorem contentLines_space_append {w : Bytes} (hw : ∀ b ∈ w, isSpace b) (t : Bytes) :
    contentLines (w ++ t) = contentLines t := by
  induction w with
  | nil => rfl
  | cons b w ih =>
    have hb : isSpace b := hw b (by simp)
    rw [List.cons_append, ← ih fun c hc => hw c (by simp [hc])]
    by_cases hbr : IsBreak b
    · exact contentLines_append_break (l := []) (by simp [NoBreak]) hbr (w ++ t)
    · -- a blank that is no break only widens the first line
      generalize w ++ t = u
      have h10 : b ≠ 10 := fun h => hbr (Or.inl h)
      have h13 : b ≠ 13 := fun h => hbr (Or.inr h)
      rw [contentLines, splitlines, splitlinesFrom, if_neg h10, if_neg h13, contentLines,
        splitlines]
      cases splitlinesFrom false u with
      | nil =>
        have hnil : strip [b] = [] := strip_eq_nil_iff.mpr (by simpa using hb)
        simp [consHead, nonBlank, hnil]
      | cons line rest => rw [consHead, nonBlank_cons, nonBlank_cons, strip_cons_space hb]

theorem contentLines_append_space (t : Bytes) {w : Bytes} (hw : ∀ b ∈ w, isSpace b) :
    contentLines (t ++ w) = contentLines t := by
  induction t using lineInduction with
  | last l hl =>
    induction w using lineInduction with
    | last w hwl =>
      have hlw : NoBreak (l ++ w) := by
        intro b hb
        rcases List.mem_append.mp hb with hb | hb
        · exact hl b hb
        · exact hwl b hb
      rw [contentLines_noBreak hlw, contentLines_noBreak hl, strip_append_spaces l hw]
    | line w b r hwl hb _ =>
      have hw' : ∀ c ∈ w, isSpace c := fun c hc => hw c (by simp [hc])
      have hr : contentLines r = [] :=
        contentLines_eq_nil_iff.mpr fun c hc => hw c (by simp [hc])
      have hlw : NoBreak (l ++ w) := by
        intro c hc
        rcases List.mem_append.mp hc with hc | hc
        · exact hl c hc
        · exact hwl c hc
      rw [← List.append_assoc, contentLines_append_break hlw hb, hr, List.append_nil,
        strip_append_spaces l hw', contentLines_noBreak hl]
  | line l b r hl hb ih =>
    rw [List.append_assoc, List.cons_append, contentLines_append_break hl hb,
      contentLines_append_break hl hb, ih]

theorem contentLines_strip (t : Bytes) : contentLines (strip t) = contentLines t := by
  obtain ⟨lead, trail, h, hlead, htrail⟩ := exists_strip t
  conv_rhs => rw [h]
  rw [contentLines_space_append hlead, contentLines_append_space _ htrail]

/-- A body is one content line exactly when no line break stands inside its
stripped text; otherwise it has at least two. -/
theorem contentLines_of_strip_noBreak {t : Bytes} (hne : strip t ≠ []) (h : NoBreak (strip t)) :
    contentLines t = [strip t] := by
  rw [← contentLines_strip, contentLines_noBreak h, strip_strip, if_neg hne]

theorem head?_strip_cons {b : UInt8} (hb : ¬ isSpace b) (l : Bytes) :
    (strip (b :: l)).head? = some b := by
  have hpre : strip (b :: l) <+: b :: l := by
    rw [strip, List.dropWhile_cons_of_neg hb]
    exact List.rdropWhile_prefix isSpace _
  cases hs : strip (b :: l) with
  | nil => exact absurd (strip_eq_nil_iff.mp hs b List.mem_cons_self) hb
  | cons c rest =>
    rw [hs] at hpre
    rw [List.head?_cons, (List.cons_prefix_cons.mp hpre).1]

/-- The first content line of a text begins as the text does. -/
theorem exists_contentLines_eq_cons {t : Bytes} (hne : strip t ≠ []) :
    ∃ line rest, contentLines t = line :: rest ∧ line.head? = (strip t).head? := by
  rw [← contentLines_strip]
  have hhead := not_isSpace_head_strip hne
  have hself := strip_strip t
  generalize strip t = u at *
  induction u using lineInduction with
  | last l hl =>
    rw [contentLines_noBreak hl, hself, if_neg hne]
    exact ⟨l, [], rfl, rfl⟩
  | line l b r hl hb _ =>
    cases l with
    | nil => exact absurd (isSpace_of_isBreak hb) hhead
    | cons c l =>
      have hline : (strip (c :: l)).head? = some c := head?_strip_cons hhead l
      have hblank : strip (c :: l) ≠ [] := by
        intro hnil
        rw [hnil] at hline
        cases hline
      rw [contentLines_append_break hl hb, if_neg hblank]
      exact ⟨strip (c :: l), contentLines r, rfl, hline⟩

theorem two_le_length_contentLines {t : Bytes} (h : ¬ NoBreak (strip t)) :
    2 ≤ (contentLines t).length := by
  rw [← contentLines_strip]
  have hne : strip t ≠ [] := by
    rintro he
    exact h (by simp [he, NoBreak])
  have hhead := not_isSpace_head_strip hne
  have hlast := not_isSpace_getLast_strip hne
  generalize strip t = u at *
  induction u using lineInduction with
  | last l hl => exact absurd hl h
  | line l b r hl hb _ =>
    -- the first character of the text is on the first line, its last one behind the break
    have hl0 : strip l ≠ [] := by
      intro hs
      rw [strip_eq_nil_iff] at hs
      cases l with
      | nil => exact hhead (isSpace_of_isBreak hb)
      | cons c l => exact hhead (hs c (by simp))
    have hr0 : contentLines r ≠ [] := by
      intro hr
      rw [contentLines_eq_nil_iff] at hr
      have hmem := List.getLast_mem hne
      rw [List.getLast_append_of_ne_nil _ (List.cons_ne_nil b r)] at hlast hmem
      cases r with
      | nil => exact hlast (isSpace_of_isBreak hb)
      | cons c r =>
        rw [List.getLast_cons (List.cons_ne_nil c r)] at hlast
        exact hlast (hr _ (List.getLast_mem _))
    have hpos : 0 < (contentLines r).length := List.length_pos_of_ne_nil hr0
    rw [contentLines_append_break hl hb, if_neg hl0, List.length_append, List.length_singleton]
    omega

end Bytes

end TelemetryApi
