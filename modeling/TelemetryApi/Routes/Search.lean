import TelemetryApi.Routes.Pages

/-!
# Searching the list

`list_events` puts `q` between two `%` as it stands, so what `ILIKE` searches for is
`q` only as long as `q` has no character that a pattern treats specially. The letter
case is that of the cluster's `localeCType: C`.
-/

namespace TelemetryApi

/-- The texts that the statements bind. -/
def ListParams.texts (p : ListParams) : List String :=
  [p.vendor, p.deviceName, p.deviceVersion, p.deviceId, p.sessionId, p.q].filterMap id

/-- PostgreSQL takes the texts. -/
def ListParams.Bindable (p : ListParams) : Prop := ∀ text ∈ p.texts, nul ∉ text.toList

instance (p : ListParams) : Decidable p.Bindable := List.decidableBAll _ p.texts

/-- `GET /v1/events`: the handler, or the exception of its first statement. -/
def getEvents (store : Store) (scan : Scan Event) (p : ListParams) :
    Except PyExc EventListResponse :=
  if p.Bindable then .ok (listEvents store scan p)
  else .error (.database "invalid byte sequence for encoding \"UTF8\": 0x00")

/-- The name or the message of the row contains the text up to letter case. -/
def Mentions (q : String) (row : Event) : Prop :=
  foldCase q <:+: foldCase row.name ∨ ∃ message ∈ row.message, foldCase q <:+: foldCase message

instance (q : String) : DecidablePred (Mentions q) := fun row => by
  unfold Mentions
  infer_instance

/-- The answer that lists the rows. -/
def listing (scan : Scan Event) (p : ListParams) (rows : List Event) : EventListResponse where
  items := (page p.limit p.offset (orderBy p.order.key scan rows)).map rowToOut
  total := rows.length
  limit := p.limit
  offset := p.offset

/-- Next to any other filters, `q` selects the rows that mention it. -/
def SearchLaw (q : String) : Prop :=
  ∀ (store : Store) (scan : Scan Event) (p : ListParams), p.q = none → p.Bindable →
    getEvents store scan { p with q := some q } =
      .ok (listing scan p ((store.select p).filter fun row => Mentions q row))

/-- PostgreSQL takes the text, and no character of it is special in a pattern. -/
def Searchable (q : String) : Prop := ∀ c ∈ q.toList, c ∉ Like.special ∧ c ≠ nul

theorem selects_search {p : ListParams} (hp : p.q = none) (q : String) (row : Event) :
    ({ p with q := some q } : ListParams).selects row =
      (p.selects row && searchFilter (some q) row) := by
  simp only [ListParams.selects, hp]
  rw [show searchFilter none row = true from rfl, Bool.and_true]

theorem select_search (store : Store) {p : ListParams} (hp : p.q = none) (q : String) :
    store.select { p with q := some q } = (store.select p).filter (searchFilter (some q)) := by
  rw [Store.select, Store.select, List.filter_filter]
  apply List.filter_congr
  intro row _
  rw [selects_search hp, Bool.and_comm]

theorem searchFilter_iff_mentions {q : String} (hne : q ≠ "")
    (hplain : ∀ c ∈ q.toList, c ∉ Like.special) (row : Event) :
    searchFilter (some q) row ↔ Mentions q row := by
  simp only [searchFilter, Mentions, Bool.or_eq_true, beq_iff_eq, hne, false_or,
    ilike_between_iff hplain, Option.any_eq_true]
  rfl

theorem bindable_search {p : ListParams} (hp : p.q = none) (q : String) :
    ({ p with q := some q } : ListParams).Bindable ↔ p.Bindable ∧ nul ∉ q.toList := by
  simp [ListParams.Bindable, ListParams.texts, hp, or_imp, forall_and, and_assoc]

/-- A name of one letter mentions no text with special characters. -/
theorem not_special_of_infix_name {q : String} (h : foldCase q <:+: foldCase "n") :
    ∀ c ∈ q.toList, c ∉ Like.special := by
  apply foldCase_special.mp
  intro c hc
  have hn : c ∈ foldCase "n" := h.subset hc
  obtain rfl : c = 'n' := by simpa [foldCase] using hn
  decide

/-- A text for which a table of one row shows nothing wrong has no special character. -/
theorem SearchLaw.searchable {q : String} (h : SearchLaw q) : Searchable q := by
  by_cases hnul : nul ∈ q.toList
  · have herror := h ⟨[], List.nodup_nil⟩ .id {} rfl (by decide)
    rw [getEvents, if_neg fun hbind => ((bindable_search rfl q).mp hbind).2 hnul] at herror
    cases herror
  · -- one row that the pattern finds
    obtain ⟨text, hfound, hinside⟩ := exists_ilike_between q
    let row : Event := { minimalRow 1 0 with message := some text }
    have hlist := h ⟨[row], List.nodup_singleton _⟩ .id {} rfl (by decide)
    rw [getEvents, if_pos ((bindable_search rfl q).mpr ⟨by decide, hnul⟩)] at hlist
    have htotal := congrArg EventListResponse.total (Except.ok.inj hlist)
    have hselected : searchFilter (some q) row := by
      simp [searchFilter, row, hfound]
    have hmentions : Mentions q row := by
      have hall : Store.select ⟨[row], List.nodup_singleton _⟩ {} = [row] := rfl
      rw [listEvents, select_search _ rfl, hall, listing] at htotal
      by_contra hnot
      simp [hselected, hnot] at htotal
    have hplain : ∀ c ∈ q.toList, c ∉ Like.special := by
      obtain hname | ⟨message, hmessage, htext⟩ := hmentions
      · exact not_special_of_infix_name hname
      · obtain rfl := Option.some.inj hmessage
        exact hinside htext
    intro c hc
    exact ⟨hplain c hc, fun hcn => hnul (hcn ▸ hc)⟩

theorem Searchable.searchLaw {q : String} (h : Searchable q) (hne : q ≠ "") : SearchLaw q := by
  intro store scan p hp hbind
  have hplain : ∀ c ∈ q.toList, c ∉ Like.special := fun c hc => (h c hc).1
  have hnul : nul ∉ q.toList := fun hmem => (h nul hmem).2 rfl
  rw [getEvents, if_pos ((bindable_search hp q).mpr ⟨hbind, hnul⟩)]
  have hselect : store.select { p with q := some q } =
      (store.select p).filter fun row => Mentions q row := by
    rw [select_search store hp]
    apply List.filter_congr
    intro row _
    rw [Bool.eq_iff_iff, searchFilter_iff_mentions hne hplain, decide_eq_true_eq]
  rw [← hselect]
  rfl

/-- A search finds what mentions the text exactly for the texts without special
characters and U+0000. -/
theorem searchLaw_iff (q : String) (hne : q ≠ "") : SearchLaw q ↔ Searchable q :=
  ⟨fun h => h.searchable, fun h => h.searchLaw hne⟩

theorem searchLaw_iff_device : SearchLaw "LM4" ↔ Searchable "LM4" :=
  searchLaw_iff "LM4" (by decide)

/-- A row whose message has a backslash. -/
def backslashRow : Event := { minimalRow 1 0 with message := some "a\\b" }

/-- `q=_` lists a row without an underscore, and `q=\` misses a row with a backslash. -/
theorem getEvents_special :
    ¬ SearchLaw "_" ∧ ¬ Mentions "_" (minimalRow 1 0) ∧
      (getEvents ⟨[minimalRow 1 0], by decide⟩ .id { q := some "_" }).toOption.map
        (·.total) = some 1 ∧
      Mentions "\\" backslashRow ∧
      (getEvents ⟨[backslashRow], by decide⟩ .id { q := some "\\" }).toOption.map
        (·.total) = some 0 := by
  refine ⟨fun h => ?_, by decide, by decide +kernel, by decide, by decide +kernel⟩
  have hlist := h ⟨[minimalRow 1 0], by decide⟩ .id {} rfl (by decide)
  have htotal := congrArg (fun r => r.toOption.map EventListResponse.total) hlist
  revert htotal
  decide +kernel

end TelemetryApi
