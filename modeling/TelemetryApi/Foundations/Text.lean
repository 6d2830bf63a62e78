import Mathlib.Data.List.Infix
import Mathlib.Data.List.DropRight

/-!
# Text as Python's `str` has it

Strings are sequences of Unicode scalar values. The functions here are the
methods of `str` under their own names, on the list of characters.
-/

namespace TelemetryApi

/-- U+0000, which PostgreSQL refuses in text and in JSON. -/
def nul : Char := Char.ofNat 0

/-- A lowercase hexadecimal digit. -/
def hexDigit (n : Nat) : Char :=
  if n < 10 then Char.ofNat (48 + n) else Char.ofNat (87 + n)

/-- The last `width` hexadecimal digits of a number. -/
def toHex : Nat → Nat → List Char
  | 0, _ => []
  | width + 1, n => toHex width (n / 16) ++ [hexDigit (n % 16)]

theorem hexDigit_ne_nul : ∀ n < 16, hexDigit n ≠ nul := by decide

theorem nul_notMem_toHex (width n : Nat) : nul ∉ toHex width n := by
  induction width generalizing n with
  | zero => simp [toHex]
  | succ width ih =>
    simp only [toHex, List.mem_append, List.mem_singleton, not_or]
    exact ⟨ih (n / 16), (hexDigit_ne_nul (n % 16) (Nat.mod_lt n (by decide))).symm⟩

/-- The decimal text of an integer is digits, with a minus sign at most. -/
theorem mem_toString_int {n : Int} {c : Char} (h : c ∈ (toString n).toList) :
    c.isDigit ∨ c = '-' := by
  have hnat : ∀ m : Nat, c ∈ m.repr.toList → c.isDigit := by
    intro m hm
    rw [Nat.toList_repr] at hm
    exact Nat.isDigit_of_mem_toDigits (by decide) (by decide) hm
  rw [Int.toString_eq_repr] at h
  cases n with
  | ofNat m => exact Or.inl (hnat m h)
  | negSucc m =>
    simp only [Int.repr, String.toList_append, List.mem_append] at h
    rcases h with h | h
    · exact Or.inr (by simpa using h)
    · exact Or.inl (hnat _ h)

theorem nul_notMem_toString (n : Int) : nul ∉ (toString n).toList := by
  intro h
  rcases mem_toString_int h with h | h
  · exact absurd h (by decide)
  · exact absurd h (by decide)

namespace PyStr

/-- `str.isspace` of one character. -/
def isSpace (c : Char) : Bool :=
  let n := c.toNat
  (9 ≤ n && n ≤ 13) || (28 ≤ n && n ≤ 32) || n == 0x85 || n == 0xA0 || n == 0x1680 ||
    (0x2000 ≤ n && n ≤ 0x200A) || n == 0x2028 || n == 0x2029 || n == 0x202F ||
    n == 0x205F || n == 0x3000

def strip (s : String) : String :=
  String.ofList ((s.toList.dropWhile isSpace).rdropWhile isSpace)

def split (sep : Char) (s : String) : List String :=
  (s.toList.splitOn sep).map String.ofList

/-- `s.partition(sep)` for a one-character separator: the text before it, the
separator or the empty string, and the text after it. -/
def partition (sep : Char) (s : String) : String × String × String :=
  let head := s.toList.takeWhile (· ≠ sep)
  match s.toList.dropWhile (· ≠ sep) with
  | [] => (s, "", "")
  | c :: tail => (String.ofList head, String.singleton c, String.ofList tail)

/-- `sep.join(parts)`. -/
def join (sep : String) : List String → String
  | [] => ""
  | [s] => s
  | s :: rest => s ++ sep ++ join sep rest

/-- `s.lower()` on ASCII letters. No other letter has a lowercase among those
the application compares with, so the others are left alone. -/
def lower (s : String) : String := String.ofList (s.toList.map Char.toLower)

/-- `needle in haystack` -/
def contains (needle haystack : String) : Bool :=
  decide (needle.toList <:+: haystack.toList)

/-- The text without the occurrences of the needle, after so many characters of an
occurrence that are still to be left out. -/
def removeFrom (needle : List Char) : Nat → List Char → List Char
  | _, [] => []
  | skip + 1, _ :: cs => removeFrom needle skip cs
  | 0, c :: cs =>
    if needle <+: c :: cs then removeFrom needle (needle.length - 1) cs
    else c :: removeFrom needle 0 cs

/-- `s.replace(needle, "")` for a needle that is not empty. -/
def remove (needle s : String) : String := String.ofList (removeFrom needle.toList 0 s.toList)

/-- `s.strip(chars)` -/
def stripChars (chars s : String) : String :=
  String.ofList ((s.toList.dropWhile (· ∈ chars.toList)).rdropWhile (· ∈ chars.toList))

/-- A needle with a character that the text lacks does not occur in it. -/
theorem remove_of_notMem {needle s : String} {c : Char} (hneedle : c ∈ needle.toList)
    (h : c ∉ s.toList) : remove needle s = s := by
  have hkeep : ∀ cs : List Char, c ∉ cs → removeFrom needle.toList 0 cs = cs := by
    intro cs
    induction cs with
    | nil => exact fun _ => rfl
    | cons d cs ih =>
      intro hcs
      have hprefix : ¬ needle.toList <+: d :: cs := fun hp => hcs (hp.subset hneedle)
      rw [removeFrom, if_neg hprefix, ih fun hmem => hcs (List.mem_cons_of_mem d hmem)]
  rw [remove, hkeep s.toList h, String.ofList_toList]

theorem stripChars_of_notMem {chars s : String} (h : ∀ c ∈ s.toList, c ∉ chars.toList) :
    stripChars chars s = s := by
  have hleft : s.toList.dropWhile (· ∈ chars.toList) = s.toList := by
    rw [List.dropWhile_eq_self_iff]
    intro hl
    simp [h _ (List.getElem_mem hl)]
  have hright : s.toList.rdropWhile (· ∈ chars.toList) = s.toList := by
    rw [List.rdropWhile_eq_self_iff]
    intro hl
    simp [h _ (List.getLast_mem hl)]
  rw [stripChars, hleft, hright, String.ofList_toList]

/-- Without a separator the text is its own head. -/
theorem partition_of_notMem {sep : Char} {s : String} (h : sep ∉ s.toList) :
    partition sep s = (s, "", "") := by
  have hdrop : s.toList.dropWhile (· ≠ sep) = [] := by
    rw [List.dropWhile_eq_nil_iff]
    intro c hc
    exact decide_eq_true fun hcs => h (hcs ▸ hc)
  simp only [partition, hdrop]

/-- The first separator is the one that splits. -/
theorem partition_append {sep : Char} {a : String} (h : sep ∉ a.toList) (b : String) :
    partition sep (a ++ String.singleton sep ++ b) = (a, String.singleton sep, b) := by
  have hall : ∀ c ∈ a.toList, decide (c ≠ sep) = true := by
    intro c hc
    exact decide_eq_true fun hcs => h (hcs ▸ hc)
  have htext : (a ++ String.singleton sep ++ b).toList = a.toList ++ sep :: b.toList := by
    simp
  have htake : (a.toList ++ sep :: b.toList).takeWhile (· ≠ sep) = a.toList := by
    rw [List.takeWhile_append_of_pos hall]
    simp
  have hdrop : (a.toList ++ sep :: b.toList).dropWhile (· ≠ sep) = sep :: b.toList := by
    rw [List.dropWhile_append_of_pos hall]
    simp
  simp only [partition, htext, htake, hdrop, String.ofList_toList]

theorem exists_append_of_mem {sep : Char} {s : String} (h : sep ∈ s.toList) :
    ∃ a b, sep ∉ a.toList ∧ s = a ++ String.singleton sep ++ b := by
  obtain ⟨a, b, hs, ha⟩ := List.eq_append_cons_of_mem h
  refine ⟨String.ofList a, String.ofList b, by simpa using ha, ?_⟩
  rw [← String.toList_inj, hs]
  simp

theorem mem_toList_join {sep : String} {c : Char} {parts : List String}
    (h : c ∈ (join sep parts).toList) :
    c ∈ sep.toList ∨ ∃ s ∈ parts, c ∈ s.toList := by
  induction parts with
  | nil => simp [join] at h
  | cons s rest ih =>
    cases rest with
    | nil => exact Or.inr ⟨s, by simp, by simpa [join] using h⟩
    | cons t rest =>
      simp only [join, String.toList_append, List.mem_append] at h
      rcases h with (hs | hsep) | hrest
      · exact Or.inr ⟨s, by simp, hs⟩
      · exact Or.inl hsep
      · rcases ih hrest with hsep | ⟨u, hu, hc⟩
        · exact Or.inl hsep
        · exact Or.inr ⟨u, List.mem_cons_of_mem s hu, hc⟩

end PyStr

example : PyStr.remove "urn:" "urn:uuid:x" = "uuid:x" ∧ PyStr.stripChars "ab" "abcba" = "c" := by
  decide

example : PyStr.partition ' ' "Bearer a b" = ("Bearer", " ", "a b") := by decide

example : (PyStr.split ',' "a, b,,").map PyStr.strip = ["a", "b", "", ""] := by decide

end TelemetryApi
