import TelemetryApi.MigrateJob
import TelemetryApi.Routes.InsertParameters
import TelemetryApi.Routes.Lifecycle
import TelemetryApi.Routes.Persist
import TelemetryApi.Routes.ReadCommitted

/-!
# The ingest route and the migration

The API and the migration jobs run side by side on one database. What the table does with a
batch follows from the catalog that the jobs have left: without the migration it takes
none, and behind a job that has succeeded it is the healthy database.
-/

namespace TelemetryApi

/-- PostgreSQL behind the driver executes an `INSERT` into `events` by the columns of the
catalog. -/
structure Database.Follows (rt : Runtime) (db : Database) (c : Catalog SqlType) : Prop where
  execute_iff : ∀ store rows, rows ≠ [] → (db.execute store rows = none ↔
    (insertBinds rows).length ≤ maxBinds ∧
      ∃ columns, resolvedColumns c "events" = some columns ∧
        ∀ row ∈ rows, TakesInsert rt columns row.insertValues)
  commit_eq : ∀ store rows, db.commit store rows = .done

variable {settings : Settings} {rt : Runtime} {db db' : Database} {store : List OrmRow}

/-- Two databases that refuse the batch of a request or both do not answer it alike: the
text of the error does not reach the client. -/
theorem postEvents_congr {req : Request} (hcommit : ∀ rows, db.commit store rows = .done)
    (hcommit' : ∀ rows, db'.commit store rows = .done)
    (hexecute : ∀ b, Prepares settings rt req b → b.rows ≠ [] →
      (db.execute store b.rows = none ↔ db'.execute store b.rows = none)) :
    postEvents settings rt db store req = postEvents settings rt db' store req := by
  rw [postEvents, postEvents]
  cases hauth : settings.requireIngestToken req.authorization with
  | error e => rfl
  | ok u =>
    simp only [sessionScope, ingestEvents]
    cases hb : prepareBatch settings rt req with
    | error e => rfl
    | ok b =>
      by_cases hrows : b.rows = []
      · simp only [hrows, if_true, hcommit, hcommit']
      · have hiff := hexecute b ⟨hauth, hb⟩ hrows
        simp only [hrows, if_false, Session.execute]
        cases hx : db.execute store b.rows with
        | none =>
          rw [hiff.mp hx]
          simp only [hcommit, hcommit']
        | some message =>
          obtain ⟨message', hx'⟩ : ∃ message', db'.execute store b.rows = some message' := by
            apply Option.ne_none_iff_exists'.mp
            intro hnone
            rw [hiff.mpr hnone] at hx
            cases hx
          rw [hx']
          rfl

/-- The healthy database refuses what the migrated table does. -/
theorem Database.strict_execute_iff {c c' : Catalog SqlType} (h : upgrade c = some c')
    (store rows : List OrmRow) : (Database.strict rt).execute store rows = none ↔
      ∃ columns, resolvedColumns c' "events" = some columns ∧
        ∀ row ∈ rows, TakesInsert rt columns row.insertValues := by
  rw [Database.strict_execute_eq_none, resolvedColumns_upgrade h]
  constructor
  · intro hdomain
    exact ⟨_, rfl, fun row hrow => (takesInsert_migrated rt row).mpr (hdomain row hrow)⟩
  · rintro ⟨columns, hcolumns, htakes⟩ row hrow
    obtain rfl := Option.some.inj hcolumns
    exact (takesInsert_migrated rt row).mp (htakes row hrow)

theorem Database.Follows.strict {c c' : Catalog SqlType} (hdb : db.Follows rt c')
    (h : upgrade c = some c') (store : List OrmRow) (req : Request) :
    postEvents settings rt db store req =
      postEvents settings rt (Database.strict rt).limited store req := by
  apply postEvents_congr (hdb.commit_eq store) fun _ => rfl
  intro b _ hrows
  rw [hdb.execute_iff store b.rows hrows, Database.limited_execute_eq_none,
    Database.strict_execute_iff h]

/-- A base that can be migrated has no such table. -/
theorem resolvedColumns_base {c : Catalog SqlType} {final : AlembicDb}
    (h : AlembicDb.migrate ⟨c, []⟩ = some final) : resolvedColumns c "events" = none := by
  have hfree : c.Free .table "events" := by
    rw [AlembicDb.migrate] at h
    obtain ⟨c₁, hversions, h⟩ := Option.bind_eq_some_iff.mp h
    obtain ⟨c₂, hupgrade, -⟩ := Option.bind_eq_some_iff.mp h
    have hfree₁ : c₁.Free .table "events" :=
      (upgrade_eq_some_iff.mp hupgrade).1 ("events", .table eventsColumns)
        (by simp [initialSchema])
    split_ifs at hversions
    · obtain rfl : c = c₁ := Option.some.inj hversions
      exact hfree₁
    · rw [Catalog.createAll_eq_append hversions] at hfree₁
      exact ((Catalog.free_append_iff _ _ _ _).mp hfree₁).1
  have htable := Catalog.tableColumns_append hfree []
  rw [List.append_nil] at htable
  rw [resolvedColumns, htable]
  rfl

/-- Without the table, a batch with rows fails and stores nothing. -/
theorem Database.Follows.refuses {c : Catalog SqlType} (hdb : db.Follows rt c)
    (h : resolvedColumns c "events" = none) (store : List OrmRow) {req : Request} {b : Batch}
    (hb : Prepares settings rt req b) (hrows : b.rows ≠ []) :
    postEvents settings rt db store req = (⟨500, .serverError, []⟩, []) := by
  have hexecute : db.execute store b.rows ≠ none := by
    intro hnone
    obtain ⟨-, columns, hcolumns, -⟩ := (hdb.execute_iff store b.rows hrows).mp hnone
    rw [h] at hcolumns
    cases hcolumns
  exact postEvents_of_refused settings rt db store hb.1 hb.2 hrows hexecute

/-- A request without rows does not touch the table. -/
theorem Database.Follows.untouched {c : Catalog SqlType} (hdb : db.Follows rt c)
    (store : List OrmRow) {req : Request}
    (hrows : ∀ b, Prepares settings rt req b → b.rows = []) :
    postEvents settings rt db store req =
      postEvents settings rt (Database.strict rt).limited store req := by
  apply postEvents_congr (hdb.commit_eq store) fun _ => rfl
  intro b hb hne
  exact absurd (hrows b hb) hne

/-- Without the table, no request stores anything. -/
theorem Database.Follows.stores_nothing {c : Catalog SqlType} (hdb : db.Follows rt c)
    (h : resolvedColumns c "events" = none) (store : List OrmRow) (req : Request) :
    (postEvents settings rt db store req).2 = [] := by
  cases hauth : settings.requireIngestToken req.authorization with
  | error e =>
    rw [postEvents, hauth]
  | ok u =>
    cases hb : prepareBatch settings rt req with
    | error e => rw [postEvents_of_error settings rt db store hauth hb]
    | ok b =>
      by_cases hrows : b.rows = []
      · rw [postEvents_of_executes settings rt db store hauth hb (fun hne => absurd hrows hne)
          (hdb.commit_eq store b.rows), hrows]
      · rw [hdb.refuses h store ⟨hauth, hb⟩ hrows]

variable (settings rt) in
/-- While migration jobs run, in any number and interleaving, and whatever they come to: once
one of them has succeeded with a DSN that has no percent sign, every ingest request is
answered and stored as by the healthy database. As long as none has migrated a database that
can be migrated, no request stores anything: a batch with rows is answered with 500, so that
the device keeps it, and all others as ever. -/
theorem migrated_serves (here : String) (hhere : '%' ∉ here.toList) (env : Settings)
    (c : Catalog SqlType) (w : Processes AlembicDb Job) (h : JobsReach here env (unmigrated c) w)
    (db : Database) (hdb : db.Follows rt w.shared.catalog) :
    (env.PercentFree → (∃ job ∈ w.procs, job.stage = .exited true) → ∀ store req,
      postEvents settings rt db store req =
        postEvents settings rt (Database.strict rt).limited store req) ∧
    ((AlembicDb.migrate ⟨c, []⟩).isSome → w.shared = ⟨c, []⟩ → ∀ store req,
      (postEvents settings rt db store req).2 = [] ∧
      (∀ b, Prepares settings rt req b → b.rows ≠ [] →
        postEvents settings rt db store req = (⟨500, .serverError, []⟩, [])) ∧
      ((∀ b, Prepares settings rt req b → b.rows = []) →
        postEvents settings rt db store req =
          postEvents settings rt (Database.strict rt).limited store req)) := by
  refine ⟨?_, ?_⟩
  · rintro hfree ⟨job, hjob, hstage⟩ store req
    have hload := migrationUrl_of_percentFree hhere hfree
    cases hmigrate : AlembicDb.migrate ⟨c, []⟩ with
    | none =>
      obtain ⟨-, hjobs⟩ := Processes.Holds.reaches (Job.keeps_unmigrated rfl hmigrate hload)
        ⟨rfl, fun job hjob => by cases hjob⟩ h
      exact absurd hstage (hjobs job hjob).1
    | some final =>
      obtain ⟨-, hjobs⟩ := Processes.Holds.reaches (Job.keeps rfl hmigrate hload)
        ⟨.inl rfl, fun job hjob => by cases hjob⟩ h
      have hconsistent := (hjobs job hjob).2
      rw [hstage] at hconsistent
      rw [hconsistent.1] at hdb
      obtain ⟨-, c', hupgrade⟩ := AlembicDb.migrate_eq_some hmigrate
      exact hdb.strict hupgrade store req
  · intro hmigrate hbase store req
    obtain ⟨final, hfinal⟩ := Option.isSome_iff_exists.mp hmigrate
    rw [hbase] at hdb
    have hnone := resolvedColumns_base hfinal
    exact ⟨hdb.stores_nothing hnone store req,
      fun b hb hrows => hdb.refuses hnone store hb hrows, fun hrows => hdb.untouched store hrows⟩

/-- PostgreSQL before the migration. -/
def Database.withoutTable : Database where
  execute _ _ := some "relation \"events\" does not exist"
  commit _ _ := .done

theorem Database.withoutTable_follows : Database.withoutTable.Follows rt [] := by
  refine ⟨?_, fun _ _ => rfl⟩
  intro store rows _
  refine iff_of_false (fun h => by cases h) ?_
  rintro ⟨-, columns, hcolumns, -⟩
  cases hcolumns

/-- PostgreSQL behind the migration, with a text of its own. -/
def Database.withTable (rt : Runtime) : Database where
  execute store rows :=
    ((Database.strict rt).limited.execute store rows).map fun _ => "refused"
  commit _ _ := .done

theorem Database.withTable_follows : (Database.withTable rt).Follows rt migratedDb.catalog := by
  have hupgrade : upgrade versionTable = some migratedDb.catalog :=
    upgrade_eq_some_iff.mpr ⟨by decide +kernel, rfl⟩
  refine ⟨?_, fun _ _ => rfl⟩
  intro store rows _
  rw [← Database.strict_execute_iff hupgrade store rows, ← Database.limited_execute_eq_none]
  exact Option.map_eq_none_iff

/-- Before any job, and behind two jobs that raced. -/
theorem migrated_serves_race :
    postEvents {} sampleRuntime .withoutTable [] mixedRequest = (⟨500, .serverError, []⟩, []) ∧
      postEvents {} sampleRuntime (.withTable sampleRuntime) [] mixedRequest =
        postEvents {} sampleRuntime (Database.strict sampleRuntime).limited [] mixedRequest := by
  obtain ⟨b, hb, hstored⟩ := prepares_sample 0
  have hrows : b.rows ≠ [] := by
    intro hnil
    rw [hnil] at hstored
    cases hstored
  have hbefore := migrated_serves {} sampleRuntime "/app" (by decide) hexPasswordSettings []
    (unmigrated []) .refl .withoutTable Database.withoutTable_follows
  have hbehind := migrated_serves {} sampleRuntime "/app" (by decide) hexPasswordSettings [] _
    jobsReach_race (.withTable sampleRuntime) Database.withTable_follows
  have hmigrates : (AlembicDb.migrate ⟨[], []⟩).isSome := by
    rw [migrate_empty]
    rfl
  exact ⟨(hbefore.2 hmigrates rfl [] mixedRequest).2.1 b hb hrows,
    hbehind.1 percentFree_hexPassword ⟨_, List.mem_cons_self, rfl⟩ [] mixedRequest⟩

end TelemetryApi
