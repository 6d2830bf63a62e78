import TelemetryApi.Foundations.Utf8

/-!
# Percent-encoding

`quote`, `quote_plus` and `unquote` of `urllib.parse`, in UTF-8. `quote_plus`
writes a space as `+`, which `unquote` leaves as it is.
-/

namespace TelemetryApi

namespace Urllib

/-- Letters, digits and `_.-~`, which `quote` never encodes. -/
def isAlwaysSafe (n : Nat) : Bool :=
  (65 ≤ n && n ≤ 90) || (97 ≤ n && n ≤ 122) || (48 ≤ n && n ≤ 57) ||
    n == 95 || n == 46 || n == 45 || n == 126

def upperHexDigit (n : Nat) : Char :=
  if n < 10 then Char.ofNat (48 + n) else Char.ofNat (55 + n)

def hexValue (c : Char) : Option Nat :=
  let n := c.toNat
  if 48 ≤ n ∧ n ≤ 57 then some (n - 48)
  else if 65 ≤ n ∧ n ≤ 70 then some (n - 55)
  else if 97 ≤ n ∧ n ≤ 102 then some (n - 87)
  else none

/-- `%XX`, or the byte itself where it is safe. -/
def quoteByte (safe : List UInt8) (b : UInt8) : List Char :=
  if isAlwaysSafe b.toNat ∨ b ∈ safe then [Char.ofNat b.toNat]
  else ['%', upperHexDigit (b.toNat / 16), upperHexDigit (b.toNat % 16)]

def quote (safe : List UInt8) (cs : List Char) : List Char :=
  (Utf8.encode cs).flatMap (quoteByte safe)

def spaceToPlus (c : Char) : Char := if c = ' ' then '+' else c

def quotePlus (cs : List Char) : List Char :=
  if ' ' ∈ cs then (quote [32] cs).map spaceToPlus else quote [] cs

/-- `unquote_to_bytes` of ASCII text; a `%` without two hexadecimal digits
behind it stands for itself. -/
def unquoteToBytes : List Char → Bytes
  | [] => []
  | [c] => [UInt8.ofNat c.toNat]
  | [c, d] => [UInt8.ofNat c.toNat, UInt8.ofNat d.toNat]
  | c :: d :: e :: rest =>
    if c = '%' then
      match hexValue d, hexValue e with
      | some x, some y => UInt8.ofNat (16 * x + y) :: unquoteToBytes rest
      | _, _ => 37 :: unquoteToBytes (d :: e :: rest)
    else UInt8.ofNat c.toNat :: unquoteToBytes (d :: e :: rest)

/-- Runs of ASCII are decoded, other characters are kept. -/
def unquoteFrom : List Char → List Char → List Char
  | run, [] => Utf8.decodeReplace (unquoteToBytes run)
  | run, c :: rest =>
    if c.toNat < 128 then unquoteFrom (run ++ [c]) rest
    else Utf8.decodeReplace (unquoteToBytes run) ++ c :: unquoteFrom [] rest

def unquote (cs : List Char) : List Char := unquoteFrom [] cs

example : quotePlus "p@s s+é".toList = "p%40s+s%2B%C3%A9".toList := by decide

example : unquote "p%40s+s%2B%C3%A9%".toList = "p@s+s+é%".toList := by decide

/-! ## Bytes -/

theorem hexValue_upperHexDigit : ∀ n < 16, hexValue (upperHexDigit n) = some n := by decide

theorem unquoteToBytes_cons {c : Char} (hc : c ≠ '%') (rest : List Char) :
    unquoteToBytes (c :: rest) = UInt8.ofNat c.toNat :: unquoteToBytes rest := by
  match rest with
  | [] => rfl
  | [_] => rfl
  | _ :: _ :: _ => rw [unquoteToBytes, if_neg hc]

theorem unquoteToBytes_percent {x y : Nat} (hx : x < 16) (hy : y < 16) (rest : List Char) :
    unquoteToBytes ('%' :: upperHexDigit x :: upperHexDigit y :: rest) =
      UInt8.ofNat (16 * x + y) :: unquoteToBytes rest := by
  rw [unquoteToBytes, if_pos rfl, hexValue_upperHexDigit x hx, hexValue_upperHexDigit y hy]

theorem isAlwaysSafe_lt {n : Nat} (h : isAlwaysSafe n) : n < 128 ∧ n ≠ 32 ∧ n ≠ 37 ∧ n ≠ 43 := by
  simp only [isAlwaysSafe, Bool.or_eq_true, Bool.and_eq_true, decide_eq_true_eq, beq_iff_eq] at h
  omega

theorem ofNat_ne_of_toNat_ne {n : Nat} {c : Char} (hn : n < 128) (h : n ≠ c.toNat) :
    Char.ofNat n ≠ c := by
  rintro rfl
  rw [Char.ofNat, dif_pos (Or.inl (by omega))] at h
  exact h rfl

theorem toNat_ofNat_ascii {n : Nat} (hn : n < 128) : (Char.ofNat n).toNat = n := by
  rw [Char.ofNat, dif_pos (Or.inl (by omega))]
  rfl

/-- `quote_plus` of one byte. -/
def plusByte (b : UInt8) : List Char := if b = 32 then ['+'] else quoteByte [] b

theorem plusByte_eq (b : UInt8) : (quoteByte [32] b).map spaceToPlus = plusByte b := by
  by_cases hb : b = 32
  · subst hb
    decide
  by_cases hs : isAlwaysSafe b.toNat
  · obtain ⟨hlt, h32, _⟩ := isAlwaysSafe_lt hs
    have hne : Char.ofNat b.toNat ≠ ' ' := ofNat_ne_of_toNat_ne hlt h32
    simp [quoteByte, plusByte, hb, hs, spaceToPlus, hne]
  · have hne : ∀ n < 16, spaceToPlus (upperHexDigit n) = upperHexDigit n := by decide
    have hlt := b.toNat_lt
    have hhi := hne (b.toNat / 16) (by omega)
    have hlo := hne (b.toNat % 16) (by omega)
    simp only [quoteByte, plusByte, hb, hs, List.mem_singleton, List.not_mem_nil, or_self,
      Bool.false_eq_true, if_false, List.map_cons, List.map_nil, hhi, hlo]
    rfl

theorem space_notMem_encode {cs : List Char} (h : ' ' ∉ cs) : (32 : UInt8) ∉ Utf8.encode cs := by
  intro hmem
  obtain ⟨c, hc, hb⟩ := List.mem_flatMap.mp hmem
  have hn : c.toNat = 32 := Utf8.eq_of_mem_encodeChar hb (by decide)
  have hsp : c = ' ' := by
    rw [← Char.ofNat_toNat c, hn]
  exact h (hsp ▸ hc)

theorem quotePlus_eq (cs : List Char) : quotePlus cs = (Utf8.encode cs).flatMap plusByte := by
  rw [quotePlus]
  split_ifs with h
  · rw [quote, List.map_flatMap]
    simp only [plusByte_eq]
  · have hsp := space_notMem_encode h
    apply List.flatMap_congr
    intro b hb
    have hne : b ≠ 32 := fun he => hsp (he ▸ hb)
    rw [plusByte, if_neg hne]

theorem isAlwaysSafe_upperHexDigit : ∀ n < 16, isAlwaysSafe (upperHexDigit n).toNat := by decide

theorem mem_plusByte {b : UInt8} {c : Char} (hc : c ∈ plusByte b) :
    c = '+' ∨ c = '%' ∨ isAlwaysSafe c.toNat := by
  have hlt := b.toNat_lt
  rw [plusByte, quoteByte] at hc
  split_ifs at hc with hb hs
  · exact Or.inl (List.mem_singleton.mp hc)
  · have hsafe := hs.resolve_right List.not_mem_nil
    rw [List.mem_singleton.mp hc, toNat_ofNat_ascii (isAlwaysSafe_lt hsafe).1]
    exact Or.inr (Or.inr hsafe)
  · simp only [List.mem_cons, List.not_mem_nil, or_false] at hc
    rcases hc with rfl | rfl | rfl
    · exact Or.inr (Or.inl rfl)
    · exact Or.inr (Or.inr (isAlwaysSafe_upperHexDigit _ (by omega)))
    · exact Or.inr (Or.inr (isAlwaysSafe_upperHexDigit _ (by omega)))

/-- Encoded text is made of safe characters, `+` and `%`. -/
theorem mem_quotePlus {cs : List Char} {c : Char} (hc : c ∈ quotePlus cs) :
    c = '+' ∨ c = '%' ∨ isAlwaysSafe c.toNat := by
  rw [quotePlus_eq] at hc
  obtain ⟨b, _, hcb⟩ := List.mem_flatMap.mp hc
  exact mem_plusByte hcb

theorem quotePlus_ascii (cs : List Char) : ∀ c ∈ quotePlus cs, c.toNat < 128 := by
  intro c hc
  rcases mem_quotePlus hc with rfl | rfl | h
  · decide
  · decide
  · exact (isAlwaysSafe_lt h).1

theorem percent_mem_plusByte (b : UInt8) :
    '%' ∈ plusByte b ↔ b ≠ 32 ∧ ¬ isAlwaysSafe b.toNat := by
  rw [plusByte, quoteByte]
  split_ifs with hb hs
  · simp [hb]
  · have hsafe := hs.resolve_right List.not_mem_nil
    obtain ⟨hlt, -, h37, -⟩ := isAlwaysSafe_lt hsafe
    have hne := ofNat_ne_of_toNat_ne (c := '%') hlt h37
    simp [hsafe, Ne.symm hne]
  · simp only [List.mem_cons, true_or, true_iff]
    exact ⟨hb, fun h => hs (Or.inl h)⟩

/-- Text is percent-encoded exactly when it has a character that is neither
safe nor a space. -/
theorem percent_mem_quotePlus (cs : List Char) :
    '%' ∈ quotePlus cs ↔ ∃ c ∈ cs, c ≠ ' ' ∧ ¬ isAlwaysSafe c.toNat := by
  have hchar : ∀ c : Char, (∃ b ∈ String.utf8EncodeChar c, '%' ∈ plusByte b) ↔
      c ≠ ' ' ∧ ¬ isAlwaysSafe c.toNat := by
    intro c
    by_cases hc : c.toNat < 128
    · have hspace : UInt8.ofNat c.toNat = 32 ↔ c = ' ' := by
        constructor
        · intro h
          have hn := congrArg UInt8.toNat h
          rw [Utf8.toNat_ofNat_of_lt (by omega)] at hn
          rw [← Char.ofNat_toNat c, hn]
          rfl
        · rintro rfl
          rfl
      simp only [Utf8.encodeChar_ascii hc, List.mem_singleton, exists_eq_left,
        percent_mem_plusByte, Utf8.toNat_ofNat_of_lt (show c.toNat < 256 by omega), ne_eq, hspace]
    · -- the lead byte of a character outside ASCII is not safe either
      have hunsafe : ¬ isAlwaysSafe c.toNat := fun h => hc (isAlwaysSafe_lt h).1
      have hspace : c ≠ ' ' := by
        rintro rfl
        exact hc (by decide)
      obtain ⟨b, tail, hb, _⟩ := Utf8.decodeStep_encodeChar c []
      have hmem : b ∈ String.utf8EncodeChar c := by simp [hb]
      have hbig : ¬ b.toNat < 128 := fun h => hc (Utf8.eq_of_mem_encodeChar hmem h ▸ h)
      refine iff_of_true ⟨b, hmem, (percent_mem_plusByte b).mpr ⟨?_, ?_⟩⟩ ⟨hspace, hunsafe⟩
      · rintro rfl
        exact hbig (by decide)
      · exact fun h => hbig (isAlwaysSafe_lt h).1
  rw [quotePlus_eq, List.mem_flatMap, Utf8.encode]
  simp only [List.mem_flatMap, ← hchar]
  constructor
  · rintro ⟨b, ⟨c, hc, hb⟩, h⟩
    exact ⟨c, hc, b, hb, h⟩
  · rintro ⟨c, hc, b, hb, h⟩
    exact ⟨b, ⟨c, hc, hb⟩, h⟩

/-! ## Round trip -/

def plusByteBack (b : UInt8) : UInt8 := if b = 32 then 43 else b

theorem unquoteToBytes_plusByte (b : UInt8) (rest : List Char) :
    unquoteToBytes (plusByte b ++ rest) = plusByteBack b :: unquoteToBytes rest := by
  have hlt := b.toNat_lt
  rw [plusByte, plusByteBack]
  split_ifs with hb
  · exact unquoteToBytes_cons (by decide) rest
  · rw [quoteByte]
    split_ifs with hs
    · have hsafe := isAlwaysSafe_lt (hs.resolve_right (List.not_mem_nil))
      rw [List.singleton_append,
        unquoteToBytes_cons (ofNat_ne_of_toNat_ne hsafe.1 hsafe.2.2.1) rest,
        toNat_ofNat_ascii hsafe.1, UInt8.ofNat_toNat]
    · rw [List.cons_append, List.cons_append, List.singleton_append,
        unquoteToBytes_percent (by omega) (by omega) rest, Nat.div_add_mod, UInt8.ofNat_toNat]

theorem unquoteToBytes_flatMap (bs : Bytes) :
    unquoteToBytes (bs.flatMap plusByte) = bs.map plusByteBack := by
  induction bs with
  | nil => rfl
  | cons b bs ih => rw [List.flatMap_cons, unquoteToBytes_plusByte, ih, List.map_cons]

theorem unquoteFrom_ascii (cs run : List Char) (h : ∀ c ∈ cs, c.toNat < 128) :
    unquoteFrom run cs = Utf8.decodeReplace (unquoteToBytes (run ++ cs)) := by
  induction cs generalizing run with
  | nil => rw [unquoteFrom, List.append_nil]
  | cons c cs ih =>
    rw [unquoteFrom, if_pos (h c (by simp)), ih _ fun d hd => h d (by simp [hd]),
      List.append_assoc, List.singleton_append]

/-- Encoded text with spaces turned into `+` is the encoded text after the turn. -/
theorem map_plusByteBack_encode (cs : List Char) :
    (Utf8.encode cs).map plusByteBack = Utf8.encode (cs.map spaceToPlus) := by
  induction cs with
  | nil => rfl
  | cons c cs ih =>
    have hhead : (String.utf8EncodeChar c).map plusByteBack =
        String.utf8EncodeChar (spaceToPlus c) := by
      rw [spaceToPlus]
      split_ifs with hc
      · subst hc
        decide
      · refine (List.map_congr_left fun b hb => ?_).trans (List.map_id _)
        have hne : b ≠ 32 := by
          rintro rfl
          have hn := Utf8.eq_of_mem_encodeChar hb (by decide)
          exact hc (by rw [← Char.ofNat_toNat c, hn]; rfl)
        rw [plusByteBack, if_neg hne, id]
    rw [Utf8.encode, List.flatMap_cons, List.map_append, hhead, List.map_cons, Utf8.encode,
      List.flatMap_cons, ← Utf8.encode, ← Utf8.encode, ih]

/-- `unquote` undoes `quote_plus` up to the spaces, which stay `+`. -/
theorem unquote_quotePlus (cs : List Char) : unquote (quotePlus cs) = cs.map spaceToPlus := by
  rw [unquote, unquoteFrom_ascii _ _ (quotePlus_ascii cs), List.nil_append, quotePlus_eq,
    unquoteToBytes_flatMap, map_plusByteBack_encode, Utf8.decodeReplace_encode]

theorem unquote_quotePlus_eq_iff (cs : List Char) : unquote (quotePlus cs) = cs ↔ ' ' ∉ cs := by
  rw [unquote_quotePlus]
  constructor
  · intro h hmem
    have hne : ' ' ∉ cs.map spaceToPlus := by
      intro hm
      obtain ⟨c, _, hc⟩ := List.mem_map.mp hm
      rw [spaceToPlus] at hc
      split_ifs at hc with hsp
      · exact absurd hc (by decide)
      · exact hsp hc
    exact hne (h.symm ▸ hmem)
  · intro h
    refine (List.map_congr_left fun c hc => ?_).trans (List.map_id _)
    have hne : c ≠ ' ' := fun he => h (he ▸ hc)
    rw [spaceToPlus, if_neg hne, id]

end Urllib

end TelemetryApi
