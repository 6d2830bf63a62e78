import TelemetryApi.Routes.Access
import TelemetryApi.Routes.ReadCommitted

/-!
# The server behind the table

The readers of `list_events` and `event_facets` are modelled over a table that grows by
whole batches. The server whose requests interleave step by step, and may fail at each of
them, gives the table no other states and no other order of them.
-/

namespace TelemetryApi

variable {settings : Settings} {rt : Runtime}

/-- The events are the rows of one transaction in the table. -/
def StoredTogether (rt : Runtime) (entry : Nat × List OrmRow) (news : List Event) : Prop :=
  ∃ receivedAt, List.Forall₂ (fun row event => ∃ id, OrmRow.stored rt row id receivedAt = some event)
    entry.2 news

/-- The table has what the server has committed, transaction by transaction. -/
def Store.Holds (rt : Runtime) (store : Store) (s : Server) : Prop :=
  ∃ blocks, List.Forall₂ (StoredTogether rt) s.log blocks ∧ store.rows = blocks.flatten

abbrev Server.Reachable (settings : Settings) (rt : Runtime) (s : Server) : Prop :=
  Relation.ReflTransGen (Server.Step settings rt) (Tasks.empty .received) s

theorem Store.ext_rows {store store' : Store} (h : store.rows = store'.rows) : store = store' := by
  cases store
  cases store'
  obtain rfl := h
  rfl

/-- Transactions of prepared batches are commits of the table. -/
theorem grows_of_blocks {entries : List (Nat × List OrmRow)} {blocks : List (List Event)}
    (h : List.Forall₂ (StoredTogether rt) entries blocks)
    (hentries : ∀ e ∈ entries, ∃ req b, Prepares settings rt req b ∧ e.2 = b.rows)
    {store store' : Store} (hrows : store'.rows = store.rows ++ blocks.flatten) :
    Store.Grows settings rt store store' := by
  induction h generalizing store with
  | nil =>
    obtain rfl : store' = store := Store.ext_rows (by simpa using hrows)
    exact .refl
  | @cons entry news entries blocks hentry _ ih =>
    have hids := store'.ids_nodup
    rw [hrows, List.flatten_cons, ← List.append_assoc, List.map_append, List.nodup_append] at hids
    obtain ⟨req, b, hprep, hb⟩ := hentries entry List.mem_cons_self
    obtain ⟨receivedAt, hstored⟩ := hentry
    -- the table behind the first transaction
    have hcommit : Ingests settings rt store ⟨store.rows ++ news, hids.1⟩ :=
      ⟨req, b, hprep, receivedAt, news, hb ▸ hstored, rfl⟩
    have hrest : store'.rows = (⟨store.rows ++ news, hids.1⟩ : Store).rows ++ blocks.flatten := by
      rw [hrows, List.flatten_cons, List.append_assoc]
    exact (ih (fun e he => hentries e (List.mem_cons_of_mem _ he)) hrest).head hcommit

theorem Server.Reachable.prepares {s : Server} (h : s.Reachable settings rt) :
    ∀ e ∈ s.log, ∃ req b, Prepares settings rt req b ∧ e.2 = b.rows := by
  rintro ⟨i, rows⟩ he
  obtain ⟨req, b, -, hprep, hrows⟩ := Server.prepares_of_mem_log h he
  exact ⟨req, b, hprep, hrows⟩

/-- The log only grows. -/
theorem Server.log_append {s s' : Server}
    (h : Relation.ReflTransGen (Server.Step settings rt) s s') : s.log <+: s'.log := by
  induction h with
  | refl => exact List.prefix_rfl
  | tail _ hstep ih =>
    cases hstep with
    | spawn job => exact ih
    | advance hadvance =>
      obtain ⟨hjob, hrun⟩ := hadvance
      exact ih.trans (List.prefix_append _ _)

theorem length_flatten_of_storedTogether {entries : List (Nat × List OrmRow)}
    {blocks : List (List Event)} (h : List.Forall₂ (StoredTogether rt) entries blocks) :
    blocks.flatten.length = (entries.map fun e => e.2.length).sum := by
  induction h with
  | nil => rfl
  | cons hentry _ ih =>
    obtain ⟨receivedAt, hstored⟩ := hentry
    rw [List.flatten_cons, List.length_append, ih, ← hstored.length_eq, List.map_cons,
      List.sum_cons]

/-- What the table has of a server is cut where the log of an earlier server ends. -/
theorem grows_of_holds {s s' : Server} (hs' : s'.Reachable settings rt) (hlog : s.log <+: s'.log)
    {store store' : Store} (h : store.Holds rt s) (h' : store'.Holds rt s')
    (hrows : store.rows <+: store'.rows) : Store.Grows settings rt store store' := by
  obtain ⟨blocks, hblocks, hstore⟩ := h
  obtain ⟨blocks', hblocks', hstore'⟩ := h'
  obtain ⟨rest, hrest⟩ := hlog
  have hearly := List.forall₂_take (s.log.length) hblocks'
  have hlate := List.forall₂_drop (s.log.length) hblocks'
  rw [← hrest, List.take_left] at hearly
  rw [← hrest, List.drop_left] at hlate
  have hflatten : (blocks'.take s.log.length).flatten ++ (blocks'.drop s.log.length).flatten =
      store'.rows := by
    rw [← List.flatten_append, List.take_append_drop, hstore']
  have hlength : store.rows.length = (blocks'.take s.log.length).flatten.length := by
    rw [hstore, length_flatten_of_storedTogether hblocks, length_flatten_of_storedTogether hearly]
  have hsame : store.rows = (blocks'.take s.log.length).flatten :=
    (List.prefix_of_prefix_length_le hrows ⟨_, hflatten⟩ hlength.le).eq_of_length hlength
  apply grows_of_blocks hlate
  · intro e he
    exact hs'.prepares e (hrest ▸ List.mem_append_right _ he)
  · rw [hsame, hflatten]

/-- From a server with the table, a run of commits can be served. -/
theorem holds_of_grows {store : Store} (h : Store.Grows settings rt emptyStore store) :
    ∃ s : Server, s.Reachable settings rt ∧ store.Holds rt s := by
  induction h with
  | refl => exact ⟨Tasks.empty .received, .refl, [], .nil, rfl⟩
  | tail _ hcommit ih =>
    obtain ⟨s, hs, blocks, hblocks, hstore⟩ := ih
    obtain ⟨req, b, hprep, receivedAt, news, hstored, hrows⟩ := hcommit
    obtain ⟨s', hreach, -, hlog, -⟩ := Server.serve s hprep
    refine ⟨s', hs.trans hreach, blocks ++ [news], ?_, ?_⟩
    · rw [hlog]
      exact List.rel_append hblocks (.cons ⟨receivedAt, hstored⟩ .nil)
    · rw [hrows, hstore, List.flatten_append, List.flatten_singleton]

variable (settings rt) in
/-- The tables behind the runs of the server, whatever interleaves and fails, are those that
grow from the empty one by whole batches of admitted requests; and where one run continues
another, the table of the first grows to that of the second in this way. -/
theorem server_tables_iff :
    (∀ store, (∃ s : Server, s.Reachable settings rt ∧ store.Holds rt s) ↔
      Store.Grows settings rt emptyStore store) ∧
    ∀ s s' : Server, s.Reachable settings rt →
      Relation.ReflTransGen (Server.Step settings rt) s s' →
      ∀ store store', store.Holds rt s → store'.Holds rt s' → store.rows <+: store'.rows →
        Store.Grows settings rt store store' := by
  refine ⟨?_, ?_⟩
  · intro store
    constructor
    · rintro ⟨s, hs, hholds⟩
      have hempty : emptyStore.Holds rt (Tasks.empty .received) := ⟨[], .nil, rfl⟩
      exact grows_of_holds hs (List.nil_prefix) hempty hholds (List.nil_prefix)
    · exact holds_of_grows
  · intro s s' hs hreach store store' hholds hholds' hrows
    exact grows_of_holds (hs.trans hreach) (Server.log_append hreach) hholds hholds' hrows

/-- The table with the batch of `mixedRequest` is that of a server. -/
theorem server_tables_iff_sample :
    ∃ s : Server, s.Reachable {} sampleRuntime ∧ filledStore.Holds sampleRuntime s :=
  ((server_tables_iff {} sampleRuntime).1 filledStore).mpr (.single ingests_sample)

end TelemetryApi
