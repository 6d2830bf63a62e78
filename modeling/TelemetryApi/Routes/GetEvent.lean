import TelemetryApi.Foundations.HexInt
import TelemetryApi.Routes.Listing

/-!
# One event by its id

`GET /v1/events/{event_id}` of `app/routes/events.py`. The id is read by
`uuid.UUID`, which takes back what `str` printed.
-/

namespace TelemetryApi

/-- The digits of a UUID without the decoration that may surround them. -/
def Uuid.bareHex (text : String) : List Char :=
  (PyStr.stripChars "\x7b\x7d" (PyStr.remove "uuid:" (PyStr.remove "urn:" text))).toList.filter
    (· ≠ '-')

/-- `uuid.UUID(text)` -/
def Uuid.ofText (text : String) : Except PyExc Uuid :=
  if (Uuid.bareHex text).length ≠ 32 then
    .error (.valueError "badly formed hexadecimal UUID string")
  else match PyInt.ofHex (Uuid.bareHex text) with
    | none => .error (.valueError "invalid literal for int() with base 16")
    | some n =>
      if 0 ≤ n ∧ n < 2 ^ 128 then .ok ⟨BitVec.ofInt 128 n⟩
      else .error (.valueError "int is out of range (need a 128-bit value)")

/-- `get_event` -/
def getEvent (store : Store) (eventId : String) : Except PyExc EventOut :=
  match Uuid.ofText eventId with
  | .error _ => .error (.http ⟨400, "event_id must be a UUID", []⟩)
  | .ok eid =>
    match store.rows.find? fun row => row.id = eid with
    | none => .error (.http ⟨404, "event not found", []⟩)
    | some row => .ok (rowToOut row)

theorem mem_dashed {ns : List Nat} {cs : List Char} {c : Char} (h : c ∈ dashed ns cs) :
    c ∈ cs ∨ c = '-' := by
  by_cases hc : c = '-'
  · exact Or.inr hc
  · have hfilter : c ∈ (dashed ns cs).filter (· ≠ '-') :=
      List.mem_filter.mpr ⟨h, decide_eq_true hc⟩
    rw [filter_dashed] at hfilter
    exact Or.inl (List.mem_filter.mp hfilter).1

theorem length_toHex (width n : Nat) : (toHex width n).length = width := by
  induction width generalizing n with
  | zero => rfl
  | succ width ih => simp [toHex, ih]

theorem filter_toHex (width n : Nat) : (toHex width n).filter (· ≠ '-') = toHex width n := by
  rw [List.filter_eq_self]
  intro c hc
  exact decide_eq_true fun hdash => dash_notMem_toHex width n (hdash ▸ hc)

theorem Uuid.bareHex_str (u : Uuid) : Uuid.bareHex u.str = toHex 32 u.value.toNat := by
  have hdigit : ∀ d < 16, hexDigit d ∉ [':', '\x7b', '\x7d'] := by decide
  have hchar : ∀ c ∈ u.str.toList, c ∉ [':', '\x7b', '\x7d'] := by
    intro c hc
    rw [Uuid.str, String.toList_ofList] at hc
    rcases mem_dashed hc with hc | rfl
    · obtain ⟨d, hd, rfl⟩ := PyInt.mem_toHex hc
      exact hdigit d hd
    · decide
  have hcolon : ':' ∉ u.str.toList := fun hmem => hchar ':' hmem (by decide)
  have hurn : PyStr.remove "urn:" u.str = u.str :=
    PyStr.remove_of_notMem (by decide : ':' ∈ "urn:".toList) hcolon
  have huuid : PyStr.remove "uuid:" u.str = u.str :=
    PyStr.remove_of_notMem (by decide : ':' ∈ "uuid:".toList) hcolon
  have hbraces : PyStr.stripChars "\x7b\x7d" u.str = u.str := by
    refine PyStr.stripChars_of_notMem fun c hc hmem => hchar c hc ?_
    exact List.mem_cons_of_mem _ hmem
  rw [Uuid.bareHex, hurn, huuid, hbraces, Uuid.str, String.toList_ofList, filter_dashed,
    filter_toHex]

/-- `uuid.UUID(str(u)) == u` -/
theorem Uuid.ofText_str (u : Uuid) : Uuid.ofText u.str = .ok u := by
  have hvalue : u.value.toNat % 16 ^ 32 = u.value.toNat := Nat.mod_eq_of_lt u.value.isLt
  have hread := PyInt.ofHex_toHex (by decide : 0 < 32) u.value.toNat
  rw [hvalue] at hread
  have hrange : (0 : Int) ≤ u.value.toNat ∧ (u.value.toNat : Int) < 2 ^ 128 :=
    ⟨Int.natCast_nonneg _, by exact_mod_cast u.value.isLt⟩
  rw [Uuid.ofText, Uuid.bareHex_str, length_toHex]
  simp only [ne_eq, not_true_eq_false, if_false, hread, hrange, and_self, if_true]
  rw [BitVec.ofInt_natCast, BitVec.ofNat_toNat, BitVec.setWidth_eq]

/-- The id is the primary key. -/
theorem Store.find_id (store : Store) {row : Event} (h : row ∈ store.rows) :
    store.rows.find? (fun other => other.id = row.id) = some row := by
  cases hother : store.rows.find? (fun other => other.id = row.id) with
  | none =>
    rw [List.find?_eq_none] at hother
    exact absurd (decide_eq_true rfl) (hother row h)
  | some other =>
    have hid : other.id = row.id := by simpa using List.find?_some hother
    have hrow := List.inj_on_of_nodup_map store.ids_nodup (List.mem_of_find?_eq_some hother) h hid
    exact congrArg some hrow

/-- The id of an item fetches the item. -/
theorem getEvent_rowToOut (store : Store) {row : Event} (h : row ∈ store.rows) :
    getEvent store (rowToOut row).id = .ok (rowToOut row) := by
  have hid : (rowToOut row).id = row.id.str := rfl
  rw [hid]
  unfold getEvent
  simp only [Uuid.ofText_str]
  rw [store.find_id h]

end TelemetryApi
