import Mathlib.Data.List.Infix

/-!
# LIKE patterns

`LIKE` with the default backslash escape, and `ILIKE`, which compares letters
without their case. Which letters have a case is up to the locale of the database; here it
is the C locale, in which only those of ASCII have.
-/

namespace TelemetryApi

namespace Like

/-- `%`, `_`, or a character that stands for itself. -/
inductive Token where
  | any
  | one
  | char (c : Char)
  deriving DecidableEq

/-- A pattern that ends in a lone escape is an error. -/
def parse : List Char → Option (List Token)
  | [] => some []
  | '%' :: cs => (parse cs).map (Token.any :: ·)
  | '_' :: cs => (parse cs).map (Token.one :: ·)
  | ['\\'] => none
  | '\\' :: c :: cs => (parse cs).map (Token.char c :: ·)
  | c :: cs => (parse cs).map (Token.char c :: ·)

/-- Whether a pattern takes the whole text. -/
def accepts : List Token → List Char → Bool
  | [], text => text.isEmpty
  | .any :: ts, text => text.tails.any (accepts ts)
  | .one :: ts, text => match text with
    | [] => false
    | _ :: rest => accepts ts rest
  | .char c :: ts, text => match text with
    | [] => false
    | d :: rest => c == d && accepts ts rest

/-- The characters that a pattern does not take for themselves. -/
def special : List Char := ['%', '_', '\\']

theorem parse_cons_of_notMem {c : Char} (h : c ∉ special) (cs : List Char) :
    parse (c :: cs) = (parse cs).map (Token.char c :: ·) := by
  simp only [special, List.mem_cons, List.not_mem_nil, or_false, not_or] at h
  rw [parse]
  · exact h.1
  · exact h.2.1
  · intro hc
    exact absurd hc h.2.2
  · intro _ _ hc
    exact absurd hc h.2.2

/-- A text without special characters stands for itself. -/
theorem parse_plain {cs rest : List Char} (h : ∀ c ∈ cs, c ∉ special) :
    parse (cs ++ rest) = (parse rest).map (cs.map Token.char ++ ·) := by
  induction cs with
  | nil => simp
  | cons c cs ih =>
    rw [List.cons_append, parse_cons_of_notMem (h c List.mem_cons_self),
      ih fun d hd => h d (List.mem_cons_of_mem _ hd), Option.map_map]
    rfl

theorem accepts_any {ts : List Token} {text : List Char} :
    accepts (.any :: ts) text ↔ ∃ rest, rest <:+ text ∧ accepts ts rest := by
  rw [accepts]
  simp only [List.any_eq_true, List.mem_tails]

theorem accepts_chars {cs : List Char} {ts : List Token} {text : List Char} :
    accepts (cs.map Token.char ++ ts) text ↔ ∃ rest, text = cs ++ rest ∧ accepts ts rest := by
  induction cs generalizing text with
  | nil => simp
  | cons c cs ih =>
    cases text with
    | nil => simp [accepts]
    | cons d text =>
      simp only [List.map_cons, List.cons_append, accepts, Bool.and_eq_true, beq_iff_eq, ih,
        List.cons.injEq]
      constructor
      · rintro ⟨rfl, rest, rfl, hrest⟩
        exact ⟨rest, ⟨rfl, rfl⟩, hrest⟩
      · rintro ⟨rest, ⟨rfl, rfl⟩, hrest⟩
        exact ⟨rfl, rest, rfl, hrest⟩

/-- A plain text between two `%` is searched for. -/
theorem accepts_infix {cs text : List Char} :
    accepts (.any :: (cs.map Token.char ++ [.any])) text ↔ cs <:+: text := by
  rw [accepts_any]
  simp only [accepts_chars]
  constructor
  · rintro ⟨_, ⟨before, rfl⟩, after, rfl, -⟩
    exact ⟨before, after, by simp⟩
  · rintro ⟨before, after, rfl⟩
    refine ⟨cs ++ after, ⟨before, by simp⟩, after, rfl, ?_⟩
    exact accepts_any.mpr ⟨[], List.nil_suffix, rfl⟩

/-! ## A text that a pattern takes -/

/-- A shortest text that the pattern with `%` behind it takes: the closing `%` is
escaped by a trailing backslash. -/
def sample : List Char → List Char
  | [] => []
  | '%' :: cs => sample cs
  | '_' :: cs => 'a' :: sample cs
  | ['\\'] => ['%']
  | '\\' :: c :: cs => c :: sample cs
  | c :: cs => c :: sample cs

theorem sample_cons_of_notMem {c : Char} (h : c ∉ special) (cs : List Char) :
    sample (c :: cs) = c :: sample cs := by
  simp only [special, List.mem_cons, List.not_mem_nil, or_false, not_or] at h
  rw [sample]
  · exact h.1
  · exact h.2.1
  · intro hc
    exact absurd hc h.2.2
  · intro _ _ hc
    exact absurd hc h.2.2

/-- What is left when no case of `sample` for a special character applies. -/
theorem notMem_special_of_cases {c : Char} {cs : List Char} (hany : ¬ c = '%') (hone : ¬ c = '_')
    (hlast : c = '\\' → ¬ cs = []) (hescape : ∀ d ds, c = '\\' → ¬ cs = d :: ds) :
    c ∉ special := by
  simp only [special, List.mem_cons, List.not_mem_nil, or_false, not_or]
  refine ⟨hany, hone, fun hc => ?_⟩
  cases cs with
  | nil => exact hlast hc rfl
  | cons d ds => exact hescape d ds hc rfl

theorem accepts_sample (cs : List Char) :
    ∃ ts, parse (cs ++ ['%']) = some ts ∧ accepts ts (sample cs) := by
  induction cs using sample.induct with
  | case1 => exact ⟨[.any], rfl, rfl⟩
  | case2 cs ih =>
    obtain ⟨ts, hparse, haccepts⟩ := ih
    refine ⟨.any :: ts, by rw [List.cons_append, parse, hparse]; rfl, ?_⟩
    exact accepts_any.mpr ⟨sample cs, List.suffix_rfl, haccepts⟩
  | case3 cs ih =>
    obtain ⟨ts, hparse, haccepts⟩ := ih
    exact ⟨.one :: ts, by rw [List.cons_append, parse, hparse]; rfl, haccepts⟩
  | case4 => exact ⟨[.char '%'], rfl, rfl⟩
  | case5 c cs ih =>
    obtain ⟨ts, hparse, haccepts⟩ := ih
    refine ⟨.char c :: ts, by rw [List.cons_append, List.cons_append, parse, hparse]; rfl, ?_⟩
    simp [sample, accepts, haccepts]
  | case6 c cs hany hone hlast hescape ih =>
    obtain ⟨ts, hparse, haccepts⟩ := ih
    have hplain := notMem_special_of_cases hany hone hlast hescape
    refine ⟨.char c :: ts, ?_, ?_⟩
    · rw [List.cons_append, parse_cons_of_notMem hplain, hparse]
      rfl
    · rw [sample_cons_of_notMem hplain]
      simp [accepts, haccepts]

theorem length_sample_le (cs : List Char) : (sample cs).length ≤ cs.length := by
  induction cs using sample.induct with
  | case1 | case4 => exact le_rfl
  | case2 cs ih | case3 cs ih | case5 c cs ih =>
    simp only [sample, List.length_cons]
    omega
  | case6 c cs hany hone hlast hescape ih =>
    rw [sample_cons_of_notMem (notMem_special_of_cases hany hone hlast hescape), List.length_cons,
      List.length_cons]
    omega

/-- The sample of a pattern with special characters is a different text. -/
theorem notMem_special_of_sample_eq {cs : List Char} (h : sample cs = cs) :
    ∀ c ∈ cs, c ∉ special := by
  induction cs using sample.induct with
  | case1 => simp
  | case2 cs ih | case5 c cs ih =>
    -- the sample is shorter
    have hlength := congrArg List.length h
    have hle := length_sample_le cs
    simp only [sample, List.length_cons] at hlength
    omega
  | case3 cs ih =>
    rw [sample] at h
    cases (List.cons.inj h).1
  | case4 =>
    rw [sample] at h
    cases h
  | case6 c cs hany hone hlast hescape ih =>
    have hplain := notMem_special_of_cases hany hone hlast hescape
    rw [sample_cons_of_notMem hplain] at h
    exact List.forall_mem_cons.mpr ⟨hplain, ih (List.cons.inj h).2⟩

/-- A pattern with special characters does not occur in its sample. -/
theorem notMem_special_of_infix_sample {cs : List Char} (h : cs <:+: sample cs) :
    ∀ c ∈ cs, c ∉ special :=
  notMem_special_of_sample_eq (h.eq_of_length_le (length_sample_le cs)).symm

/-- No special character is the lower case of another character. -/
theorem toLower_eq_iff {c d : Char} (hd : d ∈ special) : c.toLower = d ↔ c = d := by
  have hletter : ∀ e : Char,
      65 ≤ e.toNat ∧ e.toNat ≤ 90 ∨ 97 ≤ e.toNat ∧ e.toNat ≤ 122 → e ≠ d := by
    rintro e he rfl
    simp only [special, List.mem_cons, List.not_mem_nil, or_false] at hd
    rcases hd with rfl | rfl | rfl <;> revert he <;> decide
  by_cases hc : 'A'.val ≤ c.val ∧ c.val ≤ 'Z'.val
  · have hupper : 65 ≤ c.toNat ∧ c.toNat ≤ 90 := hc
    have hlower : c.toLower.toNat = c.toNat + 32 := by
      have hval : c.toLower.val = c.val + 32 := by
        delta Char.toLower
        rw [dif_pos hc]
        rfl
      rw [Char.toNat, hval, UInt32.toNat_add, Nat.mod_eq_of_lt]
      · rfl
      · show c.toNat + 32 < _
        omega
    exact iff_of_false (hletter _ (Or.inr (by omega))) (hletter _ (Or.inl hupper))
  · delta Char.toLower
    rw [dif_neg hc]

theorem toLower_mem_special {c : Char} : c.toLower ∈ special ↔ c ∈ special := by
  constructor
  · intro h
    rwa [← (toLower_eq_iff h).mp rfl] at h
  · intro h
    rwa [(toLower_eq_iff h).mpr rfl]

theorem map_toLower_sample (cs : List Char) :
    (sample cs).map Char.toLower = sample (cs.map Char.toLower) := by
  induction cs using sample.induct with
  | case1 | case4 => rfl
  | case2 cs ih =>
    rw [sample, ih]
    rfl
  | case3 cs ih =>
    rw [sample, List.map_cons, ih]
    rfl
  | case5 c cs ih =>
    rw [sample, List.map_cons, ih]
    rfl
  | case6 c cs hany hone hlast hescape ih =>
    have hplain := notMem_special_of_cases hany hone hlast hescape
    rw [List.map_cons, sample_cons_of_notMem hplain,
      sample_cons_of_notMem (mt toLower_mem_special.mp hplain), List.map_cons, ih]

end Like

/-- The text as `ILIKE` compares it in the C locale. -/
def foldCase (s : String) : List Char := s.toList.map Char.toLower

/-- `text ILIKE pattern` in the C locale, for a pattern that is no error. -/
def ilike (pattern text : String) : Bool :=
  match Like.parse (foldCase pattern) with
  | some tokens => Like.accepts tokens (foldCase text)
  | none => false

example : ilike "%C_sh\\%" "a cash%" = true ∧ ilike "%C_sh\\%" "a cash" = false := by decide

theorem foldCase_between (q : String) :
    foldCase ("%" ++ q ++ "%") = '%' :: (foldCase q ++ ['%']) := by
  simp only [foldCase, String.toList_append, List.map_append]
  rfl

theorem foldCase_special {q : String} :
    (∀ c ∈ foldCase q, c ∉ Like.special) ↔ ∀ c ∈ q.toList, c ∉ Like.special := by
  rw [foldCase, List.forall_mem_map]
  simp only [Like.toLower_mem_special]

/-- The pattern `%q%` of a `q` without special characters searches for `q`. -/
theorem ilike_between_iff {q : String} (h : ∀ c ∈ q.toList, c ∉ Like.special) (text : String) :
    ilike ("%" ++ q ++ "%") text ↔ foldCase q <:+: foldCase text := by
  have hparse : Like.parse (foldCase q ++ ['%']) =
      some ((foldCase q).map Like.Token.char ++ [.any]) :=
    Like.parse_plain (foldCase_special.mpr h)
  rw [ilike, foldCase_between, Like.parse, hparse]
  exact Like.accepts_infix

/-- A text in which the pattern `%q%` finds `q`, while `q` does not occur in it
if it has special characters. -/
theorem exists_ilike_between (q : String) :
    ∃ text, ilike ("%" ++ q ++ "%") text ∧
      (foldCase q <:+: foldCase text → ∀ c ∈ q.toList, c ∉ Like.special) := by
  refine ⟨String.ofList (Like.sample q.toList), ?_, fun h => ?_⟩
  all_goals
    have hfold : foldCase (String.ofList (Like.sample q.toList)) = Like.sample (foldCase q) := by
      rw [foldCase, String.toList_ofList, Like.map_toLower_sample]
      rfl
  · obtain ⟨ts, hparse, haccepts⟩ := Like.accepts_sample (foldCase q)
    rw [ilike, foldCase_between, Like.parse, hparse, hfold]
    exact Like.accepts_any.mpr ⟨_, List.suffix_rfl, haccepts⟩
  · rw [hfold] at h
    exact foldCase_special.mp (Like.notMem_special_of_infix_sample h)

end TelemetryApi
