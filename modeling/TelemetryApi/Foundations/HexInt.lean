import Mathlib.Tactic.Ring
import TelemetryApi.Foundations.Text

/-!
# Hexadecimal numbers in text

`int(text, 16)` of Python 3.12 on a list of characters: Unicode digits and spaces
count as the ASCII ones, a sign and a prefix may stand in front, and single
underscores between the digits.
-/

namespace TelemetryApi

namespace PyInt

/-- The zeros of the decimal digits of Unicode 15.0; each has its nine successors
behind it. -/
def decimalZeros : List Nat :=
  [0x30, 0x660, 0x6F0, 0x7C0, 0x966, 0x9E6, 0xA66, 0xAE6, 0xB66, 0xBE6, 0xC66, 0xCE6, 0xD66,
    0xDE6, 0xE50, 0xED0, 0xF20, 0x1040, 0x1090, 0x17E0, 0x1810, 0x1946, 0x19D0, 0x1A80, 0x1A90,
    0x1B50, 0x1BB0, 0x1C40, 0x1C50, 0xA620, 0xA8D0, 0xA900, 0xA9D0, 0xA9F0, 0xAA50, 0xABF0,
    0xFF10, 0x104A0, 0x10D30, 0x11066, 0x110F0, 0x11136, 0x111D0, 0x112F0, 0x11450, 0x114D0,
    0x11650, 0x116C0, 0x11730, 0x118E0, 0x11950, 0x11C50, 0x11D50, 0x11DA0, 0x11F50, 0x16A60,
    0x16AC0, 0x16B50, 0x1D7CE, 0x1D7D8, 0x1D7E2, 0x1D7EC, 0x1D7F6, 0x1E140, 0x1E2F0, 0x1E4F0,
    0x1E950, 0x1FBF0]

def decimalValue (c : Char) : Option Nat :=
  (decimalZeros.find? fun z => decide (z ≤ c.toNat ∧ c.toNat < z + 10)).map fun z => c.toNat - z

/-- The character among the ASCII ones; one that is neither a space nor a digit has
no counterpart. -/
def toAscii (c : Char) : Option Char :=
  if c.toNat < 127 then some c
  else if PyStr.isSpace c then some ' '
  else (decimalValue c).map hexDigit

/-- `Py_ISSPACE` -/
def isAsciiSpace (c : Char) : Bool := (9 ≤ c.toNat && c.toNat ≤ 13) || c.toNat == 32

def hexValue (c : Char) : Option Nat :=
  let n := c.toNat
  if 48 ≤ n ∧ n ≤ 57 then some (n - 48)
  else if 97 ≤ n ∧ n ≤ 102 then some (n - 87)
  else if 65 ≤ n ∧ n ≤ 70 then some (n - 55)
  else none

/-- The digits behind the value of those already read. An underscore stands between
two digits. -/
def digits : Nat → Bool → List Char → Option Nat
  | value, afterDigit, [] => if afterDigit then some value else none
  | value, afterDigit, c :: cs =>
    if c = '_' then if afterDigit then digits value false cs else none
    else (hexValue c).bind fun d => digits (16 * value + d) true cs

/-- The digits behind the prefix, which may end in an underscore. -/
def dropPrefix : List Char → List Char
  | '0' :: 'x' :: '_' :: cs | '0' :: 'X' :: '_' :: cs => cs
  | '0' :: 'x' :: cs | '0' :: 'X' :: cs => cs
  | cs => cs

/-- `int(text, 16)` -/
def ofHex (text : List Char) : Option Int := do
  let ascii ← text.mapM toAscii
  match (ascii.dropWhile isAsciiSpace).rdropWhile isAsciiSpace with
  | '-' :: cs => (digits 0 false (dropPrefix cs)).map fun n => -(n : Int)
  | '+' :: cs => (digits 0 false (dropPrefix cs)).map Int.ofNat
  | cs => (digits 0 false (dropPrefix cs)).map Int.ofNat

example : ofHex " +0x_1_f ".toList = some 31 ∧ ofHex "1__f".toList = none ∧
    ofHex "٣f".toList = some 63 := by decide +kernel

/-! ## Printed digits -/

theorem mem_toHex {width n : Nat} {c : Char} (h : c ∈ toHex width n) :
    ∃ d < 16, c = hexDigit d := by
  induction width generalizing n with
  | zero => simp [toHex] at h
  | succ width ih =>
    rw [toHex, List.mem_append, List.mem_singleton] at h
    rcases h with h | rfl
    · exact ih h
    · exact ⟨n % 16, Nat.mod_lt n (by decide), rfl⟩

theorem toAscii_hexDigit : ∀ d < 16, toAscii (hexDigit d) = some (hexDigit d) := by decide

theorem hexValue_hexDigit : ∀ d < 16, hexValue (hexDigit d) = some d := by decide

/-- A printed digit is neither a space nor a sign, an underscore or the letter of a
prefix. -/
theorem hexDigit_ne : ∀ d < 16, isAsciiSpace (hexDigit d) = false ∧
    hexDigit d ∉ ['-', '+', '_', 'x', 'X'] := by decide

theorem digits_hexDigit_cons {d : Nat} (hd : d < 16) (value : Nat) (afterDigit : Bool)
    (cs : List Char) :
    digits value afterDigit (hexDigit d :: cs) = digits (16 * value + d) true cs := by
  have hne : hexDigit d ≠ '_' := by
    intro h
    exact (hexDigit_ne d hd).2 (by simp [h])
  rw [digits, if_neg hne, hexValue_hexDigit d hd]
  rfl

theorem digits_toHex_append (width n value : Nat) (afterDigit : Bool) (rest : List Char) :
    digits value afterDigit (toHex width n ++ rest) =
      digits (value * 16 ^ width + n % 16 ^ width) (afterDigit || decide (0 < width)) rest := by
  induction width generalizing n rest with
  | zero => simp [toHex, Nat.mod_one]
  | succ width ih =>
    have hvalue : 16 * (value * 16 ^ width + n / 16 % 16 ^ width) + n % 16 =
        value * 16 ^ (width + 1) + n % 16 ^ (width + 1) := by
      rw [Nat.pow_succ', Nat.mod_mul]
      ring
    rw [toHex, List.append_assoc, ih, List.singleton_append,
      digits_hexDigit_cons (Nat.mod_lt n (by decide)), hvalue]
    simp

theorem dropPrefix_toHex (width n : Nat) : dropPrefix (toHex width n) = toHex width n := by
  have hx : ∀ c ∈ toHex width n, c ≠ 'x' ∧ c ≠ 'X' := by
    intro c hc
    obtain ⟨d, hd, rfl⟩ := mem_toHex hc
    have hne := (hexDigit_ne d hd).2
    simp only [List.mem_cons, not_or] at hne
    exact ⟨hne.2.2.2.1, hne.2.2.2.2.1⟩
  generalize toHex width n = cs at hx
  rw [dropPrefix.eq_def]
  split <;> simp_all

theorem mapM_toAscii {cs : List Char} (h : ∀ c ∈ cs, toAscii c = some c) :
    cs.mapM toAscii = some cs := by
  induction cs with
  | nil => rfl
  | cons c cs ih =>
    obtain ⟨hc, hcs⟩ := List.forall_mem_cons.mp h
    rw [List.mapM_cons, hc, ih hcs]
    rfl

/-- A printed number is read back. -/
theorem ofHex_toHex {width : Nat} (hwidth : 0 < width) (n : Nat) :
    ofHex (toHex width n) = some ((n % 16 ^ width : Nat) : Int) := by
  have hdigits : digits 0 false (dropPrefix (toHex width n)) = some (n % 16 ^ width) := by
    have hread := digits_toHex_append width n 0 false []
    rw [List.append_nil] at hread
    rw [dropPrefix_toHex, hread, digits]
    simp [hwidth]
  have hchar : ∀ c ∈ toHex width n,
      toAscii c = some c ∧ isAsciiSpace c = false ∧ c ≠ '-' ∧ c ≠ '+' := by
    intro c hc
    obtain ⟨d, hd, rfl⟩ := mem_toHex hc
    obtain ⟨hspace, hne⟩ := hexDigit_ne d hd
    simp only [List.mem_cons, not_or] at hne
    exact ⟨toAscii_hexDigit d hd, hspace, hne.1, hne.2.1⟩
  rw [ofHex, mapM_toAscii fun c hc => (hchar c hc).1]
  have hleft : (toHex width n).dropWhile isAsciiSpace = toHex width n := by
    rw [List.dropWhile_eq_self_iff]
    intro hl
    simp [(hchar _ (List.getElem_mem hl)).2.1]
  have hright : (toHex width n).rdropWhile isAsciiSpace = toHex width n := by
    rw [List.rdropWhile_eq_self_iff]
    intro hl
    simp [(hchar _ (List.getLast_mem hl)).2.1]
  simp only [Option.bind_eq_bind, Option.bind_some, hleft, hright]
  generalize toHex width n = cs at hchar hdigits
  split
  · exact absurd rfl (hchar '-' List.mem_cons_self).2.2.1
  · exact absurd rfl (hchar '+' List.mem_cons_self).2.2.2
  · rw [hdigits]
    rfl

end PyInt

end TelemetryApi
