import TelemetryApi.Foundations.Grouping
import TelemetryApi.Foundations.Like
import TelemetryApi.Foundations.Paging
import TelemetryApi.Models

/-!
# The listing routes

`GET /v1/events` and `GET /v1/events/_facets` of `app/routes/events.py`, over the
rows of the table. Timestamps are instants in microseconds since 1970.
-/

namespace TelemetryApi

structure Uuid where
  value : BitVec 128
  deriving DecidableEq

/-- A row of the table. -/
structure Event where
  id : Uuid
  receivedAt : Int
  vendor : String
  deviceName : String
  deviceVersion : String
  deviceId : String
  sessionId : String
  userId : String
  platform : String
  maxVersion : String
  kind : EventKind
  level : EventLevel
  name : String
  message : Option String
  ts : Int
  tsMs : Int
  value : Option Double
  unit : Option String
  props : List (String × String)
  deriving DecidableEq

/-- The rows of the table, with their primary key. -/
structure Store where
  rows : List Event
  ids_nodup : (rows.map (·.id)).Nodup

structure EventOut where
  id : String
  receivedAt : Int
  vendor : String
  deviceName : String
  deviceVersion : String
  deviceId : String
  sessionId : String
  userId : String
  platform : String
  maxVersion : String
  kind : String
  level : String
  name : String
  message : Option String
  ts : Int
  tsMs : Int
  value : Option Double
  unit : Option String
  props : List (String × String)
  deriving DecidableEq

/-! ## Identifiers as text -/

/-- The characters with a dash behind each of the lengths. -/
def dashed : List Nat → List Char → List Char
  | [], cs => cs
  | n :: ns, cs => cs.take n ++ '-' :: dashed ns (cs.drop n)

/-- `str(uuid)` -/
def Uuid.str (u : Uuid) : String :=
  String.ofList (dashed [8, 4, 4, 4] (toHex 32 u.value.toNat))

theorem filter_dashed (ns : List Nat) (cs : List Char) :
    (dashed ns cs).filter (· ≠ '-') = cs.filter (· ≠ '-') := by
  induction ns generalizing cs with
  | nil => rfl
  | cons n ns ih =>
    rw [dashed, List.filter_append, List.filter_cons_of_neg (by simp), ih, ← List.filter_append,
      List.take_append_drop]

theorem hexDigit_injOn : ∀ m < 16, ∀ n < 16, hexDigit m = hexDigit n → m = n := by decide

theorem dash_notMem_toHex (width n : Nat) : '-' ∉ toHex width n := by
  have hdigit : ∀ m < 16, hexDigit m ≠ '-' := by decide
  induction width generalizing n with
  | zero => simp [toHex]
  | succ width ih =>
    simp only [toHex, List.mem_append, List.mem_singleton, not_or]
    exact ⟨ih (n / 16), (hdigit (n % 16) (Nat.mod_lt n (by decide))).symm⟩

theorem toHex_injOn {width m n : Nat} (hm : m < 16 ^ width) (hn : n < 16 ^ width)
    (h : toHex width m = toHex width n) : m = n := by
  induction width generalizing m n with
  | zero => omega
  | succ width ih =>
    obtain ⟨hhigh, hlow⟩ := List.append_inj' h rfl
    have hdigit := hexDigit_injOn (m % 16) (Nat.mod_lt m (by decide)) (n % 16)
      (Nat.mod_lt n (by decide)) (by simpa using hlow)
    have hquot := ih (m := m / 16) (n := n / 16) (by omega) (by omega) hhigh
    omega

theorem Uuid.str_injective : Function.Injective Uuid.str := by
  rintro ⟨a⟩ ⟨b⟩ h
  have hfilter := congrArg (fun s : String => s.toList.filter (· ≠ '-')) h
  simp only [Uuid.str, String.toList_ofList, filter_dashed] at hfilter
  have hkeep : ∀ n, (toHex 32 n).filter (· ≠ '-') = toHex 32 n := by
    intro n
    rw [List.filter_eq_self]
    intro c hc
    exact decide_eq_true fun hdash => dash_notMem_toHex 32 n (hdash ▸ hc)
  rw [hkeep, hkeep] at hfilter
  have hvalue := toHex_injOn (m := a.toNat) (n := b.toNat) a.isLt b.isLt hfilter
  rw [BitVec.eq_of_toNat_eq hvalue]

/-- `_row_to_out` -/
def rowToOut (row : Event) : EventOut where
  id := row.id.str
  receivedAt := row.receivedAt
  vendor := row.vendor
  deviceName := row.deviceName
  deviceVersion := row.deviceVersion
  deviceId := row.deviceId
  sessionId := row.sessionId
  userId := row.userId
  platform := row.platform
  maxVersion := row.maxVersion
  kind := row.kind.value
  level := row.level.value
  name := row.name
  message := row.message
  ts := row.ts
  tsMs := row.tsMs
  value := row.value
  unit := row.unit
  props := row.props

/-- Different rows have different projections. -/
theorem rowToOut_injective : Function.Injective rowToOut := by
  intro a b h
  obtain ⟨⟩ := a
  obtain ⟨⟩ := b
  simp only [rowToOut, EventOut.mk.injEq] at h
  simp only [Event.mk.injEq]
  obtain ⟨hid, h1, h2, h3, h4, h5, h6, h7, h8, h9, hkind, hlevel, hrest⟩ := h
  exact ⟨Uuid.str_injective hid, h1, h2, h3, h4, h5, h6, h7, h8, h9,
    EventKind.value_injective hkind, EventLevel.value_injective hlevel, hrest⟩

/-! ## Filters -/

/-- An integer within the bounds that its query parameter declares. -/
abbrev Bounded (lo hi : Nat) := {n : Nat // lo ≤ n ∧ n ≤ hi}

inductive SortOrder where
  | asc
  | desc
  deriving DecidableEq

/-- The parameters of `list_events`; an absent `kind` or `level` is the empty
list. -/
structure ListParams where
  vendor : Option String := none
  deviceName : Option String := none
  deviceVersion : Option String := none
  deviceId : Option String := none
  sessionId : Option String := none
  kind : List EventKind := []
  level : List EventLevel := []
  since : Option Int := none
  untilTs : Option Int := none
  q : Option String := none
  order : SortOrder := .desc
  limit : Bounded 1 500 := ⟨50, by decide⟩
  offset : Nat := 0

/-- A text parameter that is absent or empty does not filter. -/
def textFilter (parameter : Option String) (column : String) : Bool :=
  match parameter with
  | none => true
  | some v => v == "" || column == v

/-- An empty list does not filter. -/
def choiceFilter {α : Type} [DecidableEq α] (choices : List α) (column : α) : Bool :=
  choices.isEmpty || decide (column ∈ choices)

/-- A null message matches no search text. -/
def searchFilter (q : Option String) (row : Event) : Bool :=
  match q with
  | none => true
  | some q => q == "" ||
    ilike ("%" ++ q ++ "%") row.name || row.message.any (ilike ("%" ++ q ++ "%"))

/-- The `WHERE` clauses of `list_events`. -/
def ListParams.selects (p : ListParams) (row : Event) : Bool :=
  textFilter p.vendor row.vendor &&
    textFilter p.deviceName row.deviceName &&
    textFilter p.deviceVersion row.deviceVersion &&
    textFilter p.deviceId row.deviceId &&
    textFilter p.sessionId row.sessionId &&
    choiceFilter p.kind row.kind &&
    choiceFilter p.level row.level &&
    p.since.all (fun since => decide (since ≤ row.ts)) &&
    p.untilTs.all (fun untilTs => decide (row.ts < untilTs)) &&
    searchFilter p.q row

/-- The key whose increasing order is the order of the items. -/
def SortOrder.key : SortOrder → Event → Int
  | .asc, row => row.ts
  | .desc, row => -row.ts

structure EventListResponse where
  items : List EventOut
  total : Nat
  limit : Nat
  offset : Nat

def Store.select (store : Store) (p : ListParams) : List Event := store.rows.filter p.selects

/-- `list_events`, where `scan` is the plan of the query for the items. -/
def listEvents (store : Store) (scan : Scan Event) (p : ListParams) : EventListResponse where
  items := (page p.limit p.offset (orderBy p.order.key scan (store.select p))).map rowToOut
  total := (store.select p).length
  limit := p.limit
  offset := p.offset

/-! ## Facets -/

/-- `datetime.now(tz.utc) - timedelta(hours=hours)` -/
def hoursBefore (now : Int) (hours : Nat) : Int := now - hours * 3600000000

/-- The rows since an instant. -/
def Store.since (store : Store) (instant : Int) : List Event :=
  store.rows.filter fun row => decide (instant ≤ row.ts)

variable {κ : Type} [LinearOrder κ]

/-- `_distinct`: the values of a text column since an instant, in the order of
the collation, without the empty one. -/
def distinctTexts (store : Store) (collation : String → κ) (since : Int)
    (column : Event → String) : List String :=
  (orderBy collation Scan.id (distinct column (store.since since))).filter (· ≠ "")

structure Facets where
  vendor : List String
  deviceName : List String
  deviceVersion : List String
  deviceId : List String

/-- `event_facets` -/
def eventFacets (store : Store) (collation : String → κ) (now : Int)
    (sinceHours : Bounded 1 (24 * 90)) : Facets where
  vendor := distinctTexts store collation (hoursBefore now sinceHours) (·.vendor)
  deviceName := distinctTexts store collation (hoursBefore now sinceHours) (·.deviceName)
  deviceVersion := distinctTexts store collation (hoursBefore now sinceHours) (·.deviceVersion)
  deviceId := distinctTexts store collation (hoursBefore now sinceHours) (·.deviceId)

/-- A facet lists the texts other than the empty one that some row has. -/
theorem mem_distinctTexts {store : Store} {collation : String → κ} {since : Int}
    {column : Event → String} {text : String} :
    text ∈ distinctTexts store collation since column ↔
      text ≠ "" ∧ ∃ row ∈ store.since since, column row = text := by
  rw [distinctTexts, List.mem_filter, (isResult_orderBy collation Scan.id _).1.mem_iff,
    mem_distinct]
  simp [and_comm]

end TelemetryApi
