import Mathlib.Data.List.Count
import Mathlib.Tactic.Linarith

/-!
# Interpolated configuration values

`configparser.BasicInterpolation`: on reading, `%%` stands for `%` and
`%(name)s` for the value of another option, up to ten levels deep; on writing,
a `%` of any other kind is refused. A value with a `%` in it is never read back
as it was written.
-/

namespace TelemetryApi

namespace Interpolation

inductive Piece where
  | text (c : Char)
  | percent
  | ref (name : List Char)
  deriving DecidableEq

inductive ScanState where
  | text
  | percent
  | name (acc : List Char)
  | close (acc : List Char)

/-- The pieces of a value; a `%` that opens neither `%%` nor `%(name)s` is an error. -/
def scan : ScanState → List Char → Option (List Piece)
  | .text, [] => some []
  | .text, c :: rest =>
    if c = '%' then scan .percent rest else (scan .text rest).map (.text c :: ·)
  | .percent, [] => none
  -- behind a `%` only `%` and `(` may stand
  | .percent, c :: rest =>
    if c = '%' then (scan .text rest).map (.percent :: ·)
    else if c = '(' then scan (.name []) rest
    else none
  | .name _, [] => none
  | .name acc, c :: rest =>
    if c = ')' then (if acc = [] then none else scan (.close acc) rest)
    else scan (.name (acc ++ [c])) rest
  | .close _, [] => none
  | .close acc, c :: rest => if c = 's' then (scan .text rest).map (.ref acc :: ·) else none

/-- `value.replace("%%", "")` -/
def dropPairs : List Char → List Char
  | [] => []
  | [c] => [c]
  | c :: d :: rest =>
    if c = '%' ∧ d = '%' then dropPairs rest else c :: dropPairs (d :: rest)

/-- `before_set`: with the pairs taken out, every `%` opens a reference. -/
def beforeSet (v : List Char) : Bool := (scan .text (dropPairs v)).isSome

/-- `lookup` is the section with its defaults; values without `%` are taken as
they stand, the others are read in turn. -/
def pieceValue (lookup : List Char → Option (List Char))
    (read : List Char → Option (List Char)) : Piece → Option (List Char)
  | .text c => some [c]
  | .percent => some ['%']
  | .ref name => (lookup name).bind fun w => if '%' ∈ w then read w else some w

def expandAll (value : Piece → Option (List Char)) : List Piece → Option (List Char)
  | [] => some []
  | p :: rest => (value p).bind fun a => (expandAll value rest).map (a ++ ·)

/-- `before_get` with `depth` levels left. -/
def readValue (lookup : List Char → Option (List Char)) : Nat → List Char → Option (List Char)
  | 0, _ => none
  | depth + 1, v => (scan .text v).bind (expandAll (pieceValue lookup (readValue lookup depth)))

/-- `MAX_INTERPOLATION_DEPTH` -/
def maxDepth : Nat := 10

example : readValue (fun n => if n = "x".toList then some "1".toList else none) maxDepth
    "a%%b%(x)s".toList = some "a%b1".toList := by decide

example : beforeSet "p%40s".toList = false := by decide

/-! ## Values without a percent sign -/

theorem scan_of_notMem {v : List Char} (h : '%' ∉ v) :
    scan .text v = some (v.map .text) := by
  induction v with
  | nil => rfl
  | cons c v ih =>
    have hc : c ≠ '%' := fun he => h (by simp [he])
    rw [scan, if_neg hc, ih fun hm => h (by simp [hm])]
    rfl

theorem expandAll_text (lookup : List Char → Option (List Char))
    (read : List Char → Option (List Char)) (v : List Char) :
    expandAll (pieceValue lookup read) (v.map .text) = some v := by
  induction v with
  | nil => rfl
  | cons c v ih =>
    rw [List.map_cons, expandAll, ih]
    rfl

theorem readValue_of_notMem (lookup : List Char → Option (List Char)) {v : List Char}
    (h : '%' ∉ v) (depth : Nat) : readValue lookup (depth + 1) v = some v := by
  rw [readValue, scan_of_notMem h]
  exact expandAll_text lookup _ v

theorem dropPairs_of_notMem {v : List Char} (h : '%' ∉ v) : dropPairs v = v := by
  induction v with
  | nil => rfl
  | cons c v ih =>
    cases v with
    | nil => rfl
    | cons d v =>
      have hc : ¬ (c = '%' ∧ d = '%') := fun he => h (by simp [he.1])
      rw [dropPairs, if_neg hc, ih fun hm => h (List.mem_cons_of_mem c hm)]

theorem beforeSet_of_notMem {v : List Char} (h : '%' ∉ v) : beforeSet v = true := by
  rw [beforeSet, dropPairs_of_notMem h, scan_of_notMem h]
  rfl

/-! ## Values with a percent sign -/

/-- The percent signs a piece stands for in the value it came from. -/
def Piece.signs : Piece → Nat
  | .text _ => 0
  | .percent => 2
  | .ref _ => 1

def ScanState.signs : ScanState → Nat
  | .text => 0
  | _ => 1

theorem scan_signs {st : ScanState} {v : List Char} {ps : List Piece} (h : scan st v = some ps) :
    (ps.map Piece.signs).sum ≤ st.signs + v.count '%' ∧
      ∀ c, Piece.text c ∈ ps → c ≠ '%' := by
  induction v generalizing st ps with
  | nil =>
    cases st <;> simp only [scan, reduceCtorEq] at h
    obtain rfl := Option.some.inj h
    simp [ScanState.signs]
  | cons c v ih =>
    cases st with
    | text =>
      rw [scan] at h
      split_ifs at h with hc
      · subst hc
        obtain ⟨h1, h2⟩ := ih h
        simp only [ScanState.signs, List.count_cons_self] at h1 ⊢
        exact ⟨by omega, h2⟩
      · obtain ⟨qs, hq, rfl⟩ := Option.map_eq_some_iff.mp h
        obtain ⟨h1, h2⟩ := ih hq
        simp only [ScanState.signs, List.count_cons_of_ne hc, List.map_cons, Piece.signs,
          List.sum_cons, Nat.zero_add, List.mem_cons, Piece.text.injEq] at h1 ⊢
        exact ⟨h1, fun d hd => hd.elim (fun he => he ▸ hc) (h2 d)⟩
    | percent =>
      rw [scan] at h
      split_ifs at h with hc hp
      · subst hc
        obtain ⟨qs, hq, rfl⟩ := Option.map_eq_some_iff.mp h
        obtain ⟨h1, h2⟩ := ih hq
        simp only [ScanState.signs, List.count_cons_self, List.map_cons, Piece.signs,
          List.sum_cons, List.mem_cons, reduceCtorEq, false_or] at h1 ⊢
        exact ⟨by omega, h2⟩
      · subst hp
        obtain ⟨h1, h2⟩ := ih h
        simp only [ScanState.signs, List.count_cons_of_ne (show '(' ≠ '%' by decide)] at h1 ⊢
        exact ⟨h1, h2⟩
    | name acc =>
      -- signs inside a name are read past, so here the count can only fall short
      rw [scan] at h
      have hle : v.count '%' ≤ (c :: v).count '%' := List.count_le_count_cons
      split_ifs at h
      all_goals
        obtain ⟨h1, h2⟩ := ih h
        simp only [ScanState.signs] at h1 ⊢
        exact ⟨by omega, h2⟩
    | close acc =>
      rw [scan] at h
      split_ifs at h
      obtain ⟨qs, hq, rfl⟩ := Option.map_eq_some_iff.mp h
      obtain ⟨h1, h2⟩ := ih hq
      have hle : v.count '%' ≤ (c :: v).count '%' := List.count_le_count_cons
      simp only [ScanState.signs, List.map_cons, Piece.signs, List.sum_cons, List.mem_cons,
        reduceCtorEq, false_or] at h1 ⊢
      exact ⟨by omega, h2⟩

theorem expandAll_isSome {value : Piece → Option (List Char)} {ps : List Piece} {out : List Char}
    (h : expandAll value ps = some out) : ∀ p ∈ ps, (value p).isSome := by
  induction ps generalizing out with
  | nil => simp
  | cons p ps ih =>
    obtain ⟨a, ha, hrest⟩ := Option.bind_eq_some_iff.mp h
    obtain ⟨b, hb, _⟩ := Option.map_eq_some_iff.mp hrest
    intro q hq
    rcases List.mem_cons.mp hq with rfl | hq
    · simp [ha]
    · exact ih hb q hq

/-- Pieces that bring no percent sign of their own yield at most half of the
signs they were scanned from. -/
theorem expandAll_count {value : Piece → Option (List Char)} {ps : List Piece} {out : List Char}
    (h : expandAll value ps = some out)
    (hv : ∀ p ∈ ps, ∀ a, value p = some a → 2 * a.count '%' ≤ p.signs) :
    2 * out.count '%' ≤ (ps.map Piece.signs).sum := by
  induction ps generalizing out with
  | nil =>
    obtain rfl := Option.some.inj h
    simp
  | cons p ps ih =>
    obtain ⟨a, ha, hrest⟩ := Option.bind_eq_some_iff.mp h
    obtain ⟨b, hb, rfl⟩ := Option.map_eq_some_iff.mp hrest
    have h1 := hv p (by simp) a ha
    have h2 := ih hb fun q hq => hv q (by simp [hq])
    rw [List.count_append, List.map_cons, List.sum_cons]
    omega

variable {lookup : List Char → Option (List Char)} {v : List Char}

/-- A value that refers to itself never ends to be read. -/
theorem readValue_selfRef {ps : List Piece} (hs : scan .text v = some ps) {name : List Char}
    (hn : .ref name ∈ ps) (hl : lookup name = some v) (hv : '%' ∈ v) (depth : Nat) :
    readValue lookup depth v = none := by
  induction depth with
  | zero => rfl
  | succ depth ih =>
    by_contra hne
    obtain ⟨out, hout⟩ := Option.ne_none_iff_exists'.mp hne
    rw [readValue, hs, Option.bind_some] at hout
    have hsome := expandAll_isSome hout _ hn
    rw [pieceValue, hl, Option.bind_some, if_pos hv, ih] at hsome
    exact absurd hsome (by decide)

/-- Where no other option has a percent sign, a value with one is read as
something else, or not at all. -/
theorem readValue_ne_self (hv : '%' ∈ v)
    (hother : ∀ name w, lookup name = some w → '%' ∈ w → w = v) (depth : Nat) :
    readValue lookup depth v ≠ some v := by
  intro h
  cases depth with
  | zero => exact absurd h (by simp [readValue])
  | succ depth =>
    have hread := h
    rw [readValue] at h
    obtain ⟨ps, hs, hout⟩ := Option.bind_eq_some_iff.mp h
    obtain ⟨hle, htext⟩ := scan_signs hs
    have hcount : 2 * v.count '%' ≤ (ps.map Piece.signs).sum := by
      apply expandAll_count hout
      intro p hp a ha
      cases p with
      | text c =>
        obtain rfl := Option.some.inj ha
        simp [List.count_cons_of_ne (htext c hp)]
      | percent =>
        obtain rfl := Option.some.inj ha
        decide
      | ref name =>
        obtain ⟨w, hw, hval⟩ := Option.bind_eq_some_iff.mp ha
        split_ifs at hval with hper
        · -- the only option with a percent sign is the value itself
          obtain rfl := hother name w hw hper
          rw [readValue_selfRef hs hp hw hv] at hread
          exact absurd hread (by simp)
        · obtain rfl := Option.some.inj hval
          simp [List.count_eq_zero_of_not_mem hper]
    have hpos : 0 < v.count '%' := List.count_pos_iff.mpr hv
    simp only [ScanState.signs] at hle
    omega

end Interpolation

end TelemetryApi
