import TelemetryApi.Foundations.Text

/-!
# JSON values as Python objects

`orjson.loads` returns `None`, `bool`, `int`, `float`, `str`, `list` or `dict`;
`Json` has one constructor for each. `pyStr` is Python's `str()` on such an
object, which `coerce_props` applies to every value of `props`.
-/

namespace TelemetryApi

/-- An IEEE 754 double, by its bits. -/
structure Double where
  bits : BitVec 64
  deriving DecidableEq

inductive Json where
  | null
  | bool (b : Bool)
  | int (n : Int)
  | float (x : Double)
  | str (s : String)
  | arr (items : List Json)
  | obj (fields : List (String × Json))

/-- A `dict` that `orjson.loads` returned. -/
abbrev JsonObject := List (String × Json)

/-- `d.get(key)` -/
def JsonObject.get (o : JsonObject) (key : String) : Option Json := o.lookup key

/-- What CPython itself decides about the text of a value: the shortest decimal
of a double and which characters `repr` leaves unescaped. -/
structure CPython where
  floatRepr : Double → String
  floatRepr_nul : ∀ x, nul ∉ (floatRepr x).toList
  isPrintable : Char → Bool

variable (py : CPython)

/-- One character of `repr(str)` under the given quote. -/
def reprChar (quote c : Char) : List Char :=
  if c = quote ∨ c = '\\' then ['\\', c]
  else if c = '\t' then ['\\', 't']
  else if c = '\n' then ['\\', 'n']
  else if c = '\r' then ['\\', 'r']
  else if c.toNat < 32 ∨ c.toNat = 127 then '\\' :: 'x' :: toHex 2 c.toNat
  else if c.toNat < 127 ∨ py.isPrintable c then [c]
  else if c.toNat ≤ 0xFF then '\\' :: 'x' :: toHex 2 c.toNat
  else if c.toNat ≤ 0xFFFF then '\\' :: 'u' :: toHex 4 c.toNat
  else '\\' :: 'U' :: toHex 8 c.toNat

def singleQuote : Char := Char.ofNat 39

def doubleQuote : Char := Char.ofNat 34

/-- Single quotes, unless the text has a single quote and no double quote. -/
def reprQuote (s : String) : Char :=
  if singleQuote ∈ s.toList ∧ doubleQuote ∉ s.toList then doubleQuote else singleQuote

def reprStr (s : String) : String :=
  String.ofList (reprQuote s :: s.toList.flatMap (reprChar py (reprQuote s)) ++ [reprQuote s])

mutual

def pyRepr : Json → String
  | .null => "None"
  | .bool b => if b then "True" else "False"
  | .int n => toString n
  | .float x => py.floatRepr x
  | .str s => reprStr py s
  | .arr items => "[" ++ PyStr.join ", " (pyReprItems items) ++ "]"
  | .obj fields => "\x7b" ++ PyStr.join ", " (pyReprFields fields) ++ "\x7d"

def pyReprItems : List Json → List String
  | [] => []
  | v :: rest => pyRepr v :: pyReprItems rest

def pyReprFields : List (String × Json) → List String
  | [] => []
  | kv :: rest => pyReprField kv :: pyReprFields rest

def pyReprField : String × Json → String
  | (k, v) => reprStr py k ++ ": " ++ pyRepr v

end

/-- `str(v)`: a string is itself, any other value is its `repr`. -/
def pyStr : Json → String
  | .str s => s
  | v => pyRepr py v

theorem nul_notMem_reprChar (quote c : Char) (hq : quote ≠ nul) : nul ∉ reprChar py quote c := by
  by_cases hc : c = nul
  · subst c
    have hne : ¬ (nul = quote ∨ nul = '\\') := by
      rintro (h | h)
      · exact hq h.symm
      · exact absurd h (by decide)
    rw [reprChar, if_neg hne, if_neg (by decide), if_neg (by decide), if_neg (by decide),
      if_pos (by decide)]
    decide
  · have hx : ∀ width, nul ∉ toHex width c.toNat := fun width => nul_notMem_toHex width c.toNat
    rw [reprChar]
    repeat' split
    all_goals simp [hx, Ne.symm hc] <;> decide

theorem nul_notMem_reprStr (s : String) : nul ∉ (reprStr py s).toList := by
  have hq : reprQuote s ≠ nul := by
    rw [reprQuote]
    split <;> decide
  simp only [reprStr, String.toList_ofList, List.mem_cons, List.cons_append, List.mem_append,
    List.mem_flatMap, List.not_mem_nil, or_false, not_or, not_exists, not_and]
  exact ⟨hq.symm, fun c _ => nul_notMem_reprChar py _ c hq, hq.symm⟩

theorem nul_notMem_join {parts : List String} (h : ∀ s ∈ parts, nul ∉ s.toList) :
    nul ∉ (PyStr.join ", " parts).toList := by
  intro hmem
  rcases PyStr.mem_toList_join hmem with hsep | ⟨s, hs, hc⟩
  · exact absurd hsep (by decide)
  · exact h s hs hc

mutual

/-- `repr` escapes U+0000 wherever it stands in a value. -/
theorem nul_notMem_pyRepr : ∀ v : Json, nul ∉ (pyRepr py v).toList
  | .null => by simp only [pyRepr]; decide
  | .bool b => by cases b <;> simp only [pyRepr] <;> decide
  | .int n => nul_notMem_toString n
  | .float x => py.floatRepr_nul x
  | .str s => nul_notMem_reprStr py s
  | .arr items => by
    have h := nul_notMem_join (nul_notMem_pyReprItems items)
    simp only [pyRepr, String.toList_append, List.mem_append, not_or]
    exact ⟨⟨by decide, h⟩, by decide⟩
  | .obj fields => by
    have h := nul_notMem_join (nul_notMem_pyReprFields fields)
    simp only [pyRepr, String.toList_append, List.mem_append, not_or]
    exact ⟨⟨by decide, h⟩, by decide⟩

theorem nul_notMem_pyReprItems : ∀ items : List Json,
    ∀ s ∈ pyReprItems py items, nul ∉ s.toList
  | [] => by simp [pyReprItems]
  | v :: rest => by
    intro s hs
    rcases List.mem_cons.mp hs with rfl | hs
    · exact nul_notMem_pyRepr v
    · exact nul_notMem_pyReprItems rest s hs

theorem nul_notMem_pyReprFields : ∀ fields : List (String × Json),
    ∀ s ∈ pyReprFields py fields, nul ∉ s.toList
  | [] => by simp [pyReprFields]
  | kv :: rest => by
    intro s hs
    rcases List.mem_cons.mp hs with rfl | hs
    · exact nul_notMem_pyReprField kv
    · exact nul_notMem_pyReprFields rest s hs

theorem nul_notMem_pyReprField : ∀ kv : String × Json, nul ∉ (pyReprField py kv).toList
  | (k, v) => by
    simp only [pyReprField, String.toList_append, List.mem_append, not_or]
    exact ⟨⟨nul_notMem_reprStr py k, by decide⟩, nul_notMem_pyRepr v⟩

end

/-- `str()` passes U+0000 on from a string and from nothing else. -/
theorem nul_mem_pyStr_iff (v : Json) :
    nul ∈ (pyStr py v).toList ↔ ∃ s, v = .str s ∧ nul ∈ s.toList := by
  cases v with
  | str s => simp [pyStr]
  | null | bool _ | int _ | float _ | arr _ | obj _ =>
    simp only [pyStr, reduceCtorEq, false_and, exists_false, iff_false]
    exact nul_notMem_pyRepr py _

end TelemetryApi
