import Mathlib.Tactic.Ring
import Mathlib.Tactic.GCongr
import TelemetryApi.Foundations.Lines

/-!
# UTF-8 with replacement

`str.encode("utf-8")` and `bytes.decode("utf-8", errors="replace")`. Decoding
reads one character at a time; a malformed sequence is replaced by U+FFFD up to
the first byte that cannot continue it, which is then read afresh.
-/

namespace TelemetryApi

namespace Utf8

def encode (cs : List Char) : Bytes := cs.flatMap String.utf8EncodeChar

/-- U+FFFD -/
def replacement : Char := Char.ofNat 0xFFFD

/-- Read `need` more bytes of a character, the next one within `lo..hi`. -/
def decodeTail : Nat → Nat → Nat → Nat → Bytes → Char × Bytes
  | 0, _, _, acc, rest => (Char.ofNat acc, rest)
  | _ + 1, _, _, _, [] => (replacement, [])
  | need + 1, lo, hi, acc, b :: rest =>
    if lo ≤ b.toNat ∧ b.toNat ≤ hi then
      decodeTail need 0x80 0xBF (acc * 64 + b.toNat % 64) rest
    else (replacement, b :: rest)

/-- The second byte is narrower behind E0, ED, F0 and F4, which keeps overlong
forms, surrogates and values above U+10FFFF out. -/
def secondLow (b : Nat) : Nat := if b = 0xE0 then 0xA0 else if b = 0xF0 then 0x90 else 0x80

def secondHigh (b : Nat) : Nat := if b = 0xED then 0x9F else if b = 0xF4 then 0x8F else 0xBF

def decodeStep (b : UInt8) (rest : Bytes) : Char × Bytes :=
  let n := b.toNat
  if n < 0x80 then (Char.ofNat n, rest)
  else if 0xC2 ≤ n ∧ n ≤ 0xDF then decodeTail 1 0x80 0xBF (n % 32) rest
  else if 0xE0 ≤ n ∧ n ≤ 0xEF then decodeTail 2 (secondLow n) (secondHigh n) (n % 16) rest
  else if 0xF0 ≤ n ∧ n ≤ 0xF4 then decodeTail 3 (secondLow n) (secondHigh n) (n % 8) rest
  -- a continuation byte, or one of C0, C1 and F5..FF, begins no character
  else (replacement, rest)

/-- Every step reads at least one byte, so a fuel of the length is enough. -/
def decodeFuel : Nat → Bytes → List Char
  | _, [] => []
  | 0, _ :: _ => []
  | fuel + 1, b :: rest =>
    let step := decodeStep b rest
    step.1 :: decodeFuel fuel step.2

def decodeReplace (bs : Bytes) : List Char := decodeFuel bs.length bs

example : decodeReplace [0x61, 0xE2, 0x82, 0x0A, 0xC3, 0xA9] =
    ['a', replacement, '\n', Char.ofNat 0xE9] := by decide

/-! ## Round trip -/

theorem toNat_ofNat_of_lt {n : Nat} (h : n < 256) : (UInt8.ofNat n).toNat = n := by
  simp [Nat.mod_eq_of_lt h]

theorem decodeTail_cons {need lo hi acc n : Nat} (hn : n < 256) (hlo : lo ≤ n) (hhi : n ≤ hi)
    (rest : Bytes) : decodeTail (need + 1) lo hi acc (UInt8.ofNat n :: rest) =
      decodeTail need 0x80 0xBF (acc * 64 + n % 64) rest := by
  rw [decodeTail, toNat_ofNat_of_lt hn, if_pos ⟨hlo, hhi⟩]

theorem decodeTail_zero (lo hi acc : Nat) (rest : Bytes) :
    decodeTail 0 lo hi acc rest = (Char.ofNat acc, rest) := rfl

/-- What a character is encoded to is read back as that character. -/
theorem decodeStep_encodeChar (c : Char) (rest : Bytes) :
    ∃ b tail, String.utf8EncodeChar c = b :: tail ∧ decodeStep b (tail ++ rest) = (c, rest) := by
  have hvalid : c.toNat < 0xD800 ∨ (0xDFFF < c.toNat ∧ c.toNat < 0x110000) := c.valid
  have hback : Char.ofNat c.toNat = c := Char.ofNat_toNat c
  have hval : c.val.toNat = c.toNat := rfl
  rw [String.utf8EncodeChar]
  simp only [hval]
  generalize c.toNat = v at *
  by_cases h1 : v ≤ 0x7F
  · refine ⟨_, _, if_pos h1, ?_⟩
    rw [decodeStep, toNat_ofNat_of_lt (by omega), if_pos (by omega), hback]
    rfl
  by_cases h2 : v ≤ 0x7FF
  · refine ⟨_, _, by rw [if_neg h1, if_pos h2], ?_⟩
    rw [decodeStep, toNat_ofNat_of_lt (by omega), if_neg (by omega), if_pos (by omega),
      List.cons_append, decodeTail_cons (by omega) (by omega) (by omega), decodeTail_zero]
    rw [← hback]
    congr 2
    omega
  by_cases h3 : v ≤ 0xFFFF
  · refine ⟨_, _, by rw [if_neg h1, if_neg h2, if_pos h3], ?_⟩
    have hlow : secondLow (v / 4096 % 16 + 0xE0) ≤ v / 64 % 64 + 0x80 := by
      rw [secondLow]
      split_ifs <;> omega
    have hhigh : v / 64 % 64 + 0x80 ≤ secondHigh (v / 4096 % 16 + 0xE0) := by
      rw [secondHigh]
      split_ifs <;> omega
    rw [decodeStep, toNat_ofNat_of_lt (by omega), if_neg (by omega), if_neg (by omega),
      if_pos (by omega), List.cons_append, decodeTail_cons (by omega) hlow hhigh,
      List.cons_append, decodeTail_cons (by omega) (by omega) (by omega), decodeTail_zero]
    rw [← hback]
    congr 2
    omega
  · refine ⟨_, _, by rw [if_neg h1, if_neg h2, if_neg h3], ?_⟩
    have hlow : secondLow (v / 262144 % 8 + 0xF0) ≤ v / 4096 % 64 + 0x80 := by
      rw [secondLow]
      split_ifs <;> omega
    have hhigh : v / 4096 % 64 + 0x80 ≤ secondHigh (v / 262144 % 8 + 0xF0) := by
      rw [secondHigh]
      split_ifs <;> omega
    rw [decodeStep, toNat_ofNat_of_lt (by omega), if_neg (by omega), if_neg (by omega),
      if_neg (by omega), if_pos (by omega), List.cons_append,
      decodeTail_cons (by omega) hlow hhigh, List.cons_append,
      decodeTail_cons (by omega) (by omega) (by omega), List.cons_append,
      decodeTail_cons (by omega) (by omega) (by omega), decodeTail_zero]
    rw [← hback]
    congr 2
    omega

theorem decodeFuel_encode (cs : List Char) (fuel : Nat) (h : (encode cs).length ≤ fuel) :
    decodeFuel fuel (encode cs) = cs := by
  induction cs generalizing fuel with
  | nil => cases fuel <;> rfl
  | cons c cs ih =>
    obtain ⟨b, tail, he, hstep⟩ := decodeStep_encodeChar c (encode cs)
    have hcons : encode (c :: cs) = b :: (tail ++ encode cs) := by
      rw [encode, List.flatMap_cons, he]
      rfl
    rw [hcons, List.length_cons, List.length_append] at h
    cases fuel with
    | zero => omega
    | succ fuel =>
      rw [hcons, decodeFuel, hstep]
      rw [ih fuel (by omega)]

theorem decodeReplace_encode (cs : List Char) : decodeReplace (encode cs) = cs :=
  decodeFuel_encode cs _ le_rfl

/-! ## ASCII -/

theorem encodeChar_ascii {c : Char} (h : c.toNat < 128) :
    String.utf8EncodeChar c = [UInt8.ofNat c.toNat] := by
  rw [String.utf8EncodeChar]
  exact if_pos (show c.toNat ≤ 0x7F by omega)

/-- An ASCII byte only ever encodes its own character. -/
theorem eq_of_mem_encodeChar {c : Char} {b : UInt8} (h : b ∈ String.utf8EncodeChar c)
    (hb : b.toNat < 128) : c.toNat = b.toNat := by
  by_cases hc : c.toNat < 128
  · rw [encodeChar_ascii hc, List.mem_singleton] at h
    rw [h, toNat_ofNat_of_lt (by omega)]
  · exfalso
    have hv : c.toNat < 0x110000 := by
      rcases c.valid with h | h
      · exact Nat.lt_trans h (by decide)
      · exact h.2
    have hval : c.val.toNat = c.toNat := rfl
    rw [String.utf8EncodeChar] at h
    simp only [hval] at h
    generalize c.toNat = v at *
    split_ifs at h <;> simp only [List.mem_cons, List.not_mem_nil, or_false] at h
    · omega
    · rcases h with rfl | rfl <;> rw [toNat_ofNat_of_lt (by omega)] at hb <;> omega
    · rcases h with rfl | rfl | rfl <;> rw [toNat_ofNat_of_lt (by omega)] at hb <;> omega
    · rcases h with rfl | rfl | rfl | rfl <;> rw [toNat_ofNat_of_lt (by omega)] at hb <;> omega

/-! ## Line feeds are neither swallowed nor invented -/

theorem ofNat_ne_newline {n : Nat} (h : 0x80 ≤ n) : Char.ofNat n ≠ '\n' := by
  intro he
  have hn : (Char.ofNat n).toNat = 10 := by rw [he]; rfl
  by_cases hvalid : n.isValidChar
  · rw [Char.ofNat, dif_pos hvalid] at hn
    exact absurd (show n = 10 from hn) (by omega)
  · rw [Char.ofNat, dif_neg hvalid] at hn
    exact absurd hn (by decide)

theorem replacement_ne_newline : replacement ≠ '\n' := by decide

/-- A tail drops no line feed and yields none, provided the lead byte and the
range of the second byte put the character above ASCII. -/
theorem decodeTail_newline (need lo hi acc : Nat) (rest : Bytes) (hlo : 0x80 ≤ lo)
    (hhi : hi ≤ 0xBF) (hacc : 0x80 ≤ (acc * 64 + (lo - 0x80)) * 64 ^ need) :
    (decodeTail (need + 1) lo hi acc rest).1 ≠ '\n' ∧
      (10 ∈ (decodeTail (need + 1) lo hi acc rest).2 ↔ 10 ∈ rest) ∧
      (decodeTail (need + 1) lo hi acc rest).2.length ≤ rest.length := by
  induction need generalizing lo hi acc rest with
  | zero =>
    cases rest with
    | nil => exact ⟨replacement_ne_newline, Iff.rfl, le_rfl⟩
    | cons b rest =>
      by_cases h : lo ≤ b.toNat ∧ b.toNat ≤ hi
      · have hb : b ≠ 10 := by
          rintro rfl
          have : (10 : UInt8).toNat = 10 := rfl
          omega
        rw [decodeTail, if_pos h, decodeTail_zero]
        refine ⟨ofNat_ne_newline ?_, ?_, by simp⟩
        · rw [pow_zero, Nat.mul_one] at hacc
          omega
        · simp [Ne.symm hb]
      · rw [decodeTail, if_neg h]
        exact ⟨replacement_ne_newline, Iff.rfl, le_rfl⟩
  | succ need ih =>
    cases rest with
    | nil => exact ⟨replacement_ne_newline, Iff.rfl, le_rfl⟩
    | cons b rest =>
      by_cases h : lo ≤ b.toNat ∧ b.toNat ≤ hi
      · have hb : b ≠ 10 := by
          rintro rfl
          have : (10 : UInt8).toNat = 10 := rfl
          omega
        have hmod : lo - 0x80 ≤ b.toNat % 64 := by omega
        have hnext : 0x80 ≤ ((acc * 64 + b.toNat % 64) * 64 + (0x80 - 0x80)) * 64 ^ need := by
          calc 0x80 ≤ (acc * 64 + (lo - 0x80)) * 64 ^ (need + 1) := hacc
            _ ≤ (acc * 64 + b.toNat % 64) * 64 ^ (need + 1) := by gcongr
            _ = ((acc * 64 + b.toNat % 64) * 64 + (0x80 - 0x80)) * 64 ^ need := by ring
        obtain ⟨hc, hmem, hlen⟩ := ih 0x80 0xBF _ rest le_rfl le_rfl hnext
        rw [decodeTail, if_pos h]
        refine ⟨hc, ?_, ?_⟩
        · rw [hmem]
          simp [Ne.symm hb]
        · rw [List.length_cons]
          omega
      · rw [decodeTail, if_neg h]
        exact ⟨replacement_ne_newline, Iff.rfl, le_rfl⟩

theorem le_secondLow (n : Nat) : 0x80 ≤ secondLow n := by
  rw [secondLow]
  split_ifs <;> omega

theorem secondHigh_le (n : Nat) : secondHigh n ≤ 0xBF := by
  rw [secondHigh]
  split_ifs <;> omega

theorem eq_newline_iff (b : UInt8) : b = 10 ↔ b.toNat = 10 := by
  constructor
  · rintro rfl
    rfl
  · intro h
    exact UInt8.toNat_inj.mp h

/-- The three longer forms differ only in the arguments of the tail. -/
theorem decodeTail_newline_of_le {b : UInt8} (hbig : 0x80 ≤ b.toNat) {need lo hi acc : Nat}
    (hlo : 0x80 ≤ lo) (hhi : hi ≤ 0xBF) (hacc : 0x80 ≤ (acc * 64 + (lo - 0x80)) * 64 ^ need)
    (rest : Bytes) :
    ((decodeTail (need + 1) lo hi acc rest).1 = '\n' ↔ b = 10) ∧
      (10 ∈ (decodeTail (need + 1) lo hi acc rest).2 ↔ 10 ∈ rest) ∧
        (decodeTail (need + 1) lo hi acc rest).2.length ≤ rest.length := by
  obtain ⟨hc, hmem, hlen⟩ := decodeTail_newline need lo hi acc rest hlo hhi hacc
  refine ⟨iff_of_false hc ?_, hmem, hlen⟩
  rw [eq_newline_iff]
  omega

theorem decodeStep_newline (b : UInt8) (rest : Bytes) :
    ((decodeStep b rest).1 = '\n' ↔ b = 10) ∧ (10 ∈ (decodeStep b rest).2 ↔ 10 ∈ rest) ∧
      (decodeStep b rest).2.length ≤ rest.length := by
  by_cases h1 : b.toNat < 0x80
  · have hstep : decodeStep b rest = (Char.ofNat b.toNat, rest) := by
      rw [decodeStep, if_pos h1]
    rw [hstep]
    refine ⟨?_, Iff.rfl, le_rfl⟩
    constructor
    · intro he
      have hn : (Char.ofNat b.toNat).toNat = 10 := congrArg Char.toNat he
      rw [Char.ofNat, dif_pos (Or.inl (by omega))] at hn
      exact (eq_newline_iff b).mpr hn
    · rintro rfl
      rfl
  have hbig : 0x80 ≤ b.toNat := by omega
  by_cases h2 : 0xC2 ≤ b.toNat ∧ b.toNat ≤ 0xDF
  · have hacc : 0x80 ≤ (b.toNat % 32 * 64 + (0x80 - 0x80)) * 64 ^ 0 := by omega
    rw [decodeStep, if_neg h1, if_pos h2]
    exact decodeTail_newline_of_le hbig le_rfl le_rfl hacc rest
  by_cases h3 : 0xE0 ≤ b.toNat ∧ b.toNat ≤ 0xEF
  · have hacc : 0x80 ≤ (b.toNat % 16 * 64 + (secondLow b.toNat - 0x80)) * 64 ^ 1 := by
      rw [secondLow]
      split_ifs <;> omega
    rw [decodeStep, if_neg h1, if_neg h2, if_pos h3]
    exact decodeTail_newline_of_le hbig (le_secondLow _) (secondHigh_le _) hacc rest
  by_cases h4 : 0xF0 ≤ b.toNat ∧ b.toNat ≤ 0xF4
  · have hacc : 0x80 ≤ (b.toNat % 8 * 64 + (secondLow b.toNat - 0x80)) * 64 ^ 2 := by
      rw [secondLow]
      split_ifs <;> omega
    rw [decodeStep, if_neg h1, if_neg h2, if_neg h3, if_pos h4]
    exact decodeTail_newline_of_le hbig (le_secondLow _) (secondHigh_le _) hacc rest
  · have hstep : decodeStep b rest = (replacement, rest) := by
      rw [decodeStep, if_neg h1, if_neg h2, if_neg h3, if_neg h4]
    rw [hstep]
    refine ⟨iff_of_false replacement_ne_newline ?_, Iff.rfl, le_rfl⟩
    rw [eq_newline_iff]
    omega

theorem newline_mem_decodeFuel (fuel : Nat) (bs : Bytes) (h : bs.length ≤ fuel) :
    '\n' ∈ decodeFuel fuel bs ↔ 10 ∈ bs := by
  induction fuel generalizing bs with
  | zero =>
    have : bs = [] := List.length_eq_zero_iff.mp (by omega)
    subst this
    simp [decodeFuel]
  | succ fuel ih =>
    cases bs with
    | nil => simp [decodeFuel]
    | cons b rest =>
      obtain ⟨hc, hmem, hlen⟩ := decodeStep_newline b rest
      rw [List.length_cons] at h
      rw [decodeFuel, List.mem_cons, List.mem_cons, ih _ (by omega), hmem,
        eq_comm (a := '\n'), hc, eq_comm (a := b)]

/-- `"\n" in raw.decode("utf-8", errors="replace")` tests for the byte LF. -/
theorem newline_mem_decodeReplace (bs : Bytes) : '\n' ∈ decodeReplace bs ↔ 10 ∈ bs :=
  newline_mem_decodeFuel bs.length bs le_rfl

end Utf8

end TelemetryApi
