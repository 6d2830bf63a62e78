import TelemetryApi.AlembicEnv
import TelemetryApi.Foundations.Processes
import TelemetryApi.Migration

/-!
# Migration jobs

`alembic upgrade head` as `k8s/migrate-job.yaml`, the compose files and `make migrate` run
it: any number of jobs, restarted or at the same time, that may die at any point. Each loads
`alembic/env.py` first, which fails or leads elsewhere where the DSN has a percent sign. DDL
is transactional in PostgreSQL, and of two jobs that create the same names the later one
waits for the commit of the first, so what a job changes it changes in one step.
-/

namespace TelemetryApi

/-- `revision` of `alembic/versions/0001_initial.py` -/
def revision : String := "0001_initial"

/-- The table in which Alembic keeps the revision. -/
def versionTable : Catalog SqlType :=
  [("alembic_version", .table
      [{ name := "version_num", type := .builtin (.string 32), nullable := false }]),
    ("alembic_version_pkc", .index "alembic_version" ["version_num"] "btree")]

/-- The catalog and the rows of `alembic_version`. -/
structure AlembicDb where
  catalog : Catalog SqlType
  versions : List String

/-- The transaction of `context.run_migrations` from the empty base: the version table if it
is missing, `upgrade`, and the row of the revision. -/
def AlembicDb.migrate (db : AlembicDb) : Option AlembicDb :=
  (if db.catalog.has .table "alembic_version" then some db.catalog
    else db.catalog.createAll versionTable).bind fun c =>
  (upgrade c).bind fun c' =>
  if revision ∈ db.versions then none else some ⟨c', db.versions ++ [revision]⟩

inductive JobStage where
  | started
  /-- `env.py` is loaded and connected. -/
  | connected
  | planned (heads : List String)
  | exited (ok : Bool)
  | crashed

def JobStage.running : JobStage → Bool
  | started => true
  | connected => true
  | planned _ => true
  | exited _ => false
  | crashed => false

/-- A job with the state of the database at its start. -/
structure Job where
  startedIn : AlembicDb
  stage : JobStage

variable (here : String) (settings : Settings)

/-- One step of a job: it loads `env.py` and reads the heads, and then it has nothing to do,
or it does not know the revision, or it runs the migration, whose commit may be lost on it. -/
inductive JobStage.Step : AlembicDb × JobStage → AlembicDb × JobStage → Prop
  | load {db : AlembicDb} (h : migrationUrl here settings = .ok settings.resolvedDatabaseUrl) :
      Step (db, .started) (db, .connected)
  | loadError {db : AlembicDb} {e : ConfigError} (h : migrationUrl here settings = .error e) :
      Step (db, .started) (db, .exited false)
  /-- The configuration gives back another DSN, and what the job does there is its own. -/
  | elsewhere {db : AlembicDb} {url : String} (h : migrationUrl here settings = .ok url)
      (hother : url ≠ settings.resolvedDatabaseUrl) (ok : Bool) :
      Step (db, .started) (db, .exited ok)
  | read (db : AlembicDb) : Step (db, .connected) (db, .planned db.versions)
  | current (db : AlembicDb) : Step (db, .planned [revision]) (db, .exited true)
  | unknown {db : AlembicDb} {heads : List String} (hbase : heads ≠ []) (h : heads ≠ [revision]) :
      Step (db, .planned heads) (db, .exited false)
  | commit {db db' : AlembicDb} (h : db.migrate = some db') :
      Step (db, .planned []) (db', .exited true)
  | refused {db : AlembicDb} (h : db.migrate = none) : Step (db, .planned []) (db, .exited false)
  | lost {db db' : AlembicDb} (h : db.migrate = some db') : Step (db, .planned []) (db', .crashed)
  /-- It is killed, or its connection fails or breaks off. -/
  | crash (db : AlembicDb) {stage : JobStage} (h : stage.running) : Step (db, stage) (db, .crashed)

def Job.Run (x y : AlembicDb × Job) : Prop :=
  JobStage.Step here settings (x.1, x.2.stage) (y.1, y.2.stage) ∧ y.2.startedIn = x.2.startedIn

/-- A job can be started at any time. -/
def Job.Start (db : AlembicDb) (job : Job) : Prop := job = ⟨db, .started⟩

/-- The database with the jobs that have been started. -/
abbrev JobsReach : Processes AlembicDb Job → Processes AlembicDb Job → Prop :=
  Processes.Reaches Job.Start (Job.Run here settings)

/-- The database before any migration, and no job. -/
def unmigrated (c : Catalog SqlType) : Processes AlembicDb Job := ⟨⟨c, []⟩, []⟩

/-! ## One step -/

variable {here settings}

/-- The database changes only by the migration. -/
theorem JobStage.Step.shared {db db' : AlembicDb} {stage stage' : JobStage}
    (h : Step here settings (db, stage) (db', stage')) : db' = db ∨ db.migrate = some db' := by
  cases h with
  | commit h => exact .inr h
  | lost h => exact .inr h
  | _ => exact .inl rfl

section Migrates

variable {base final : AlembicDb} (hbase : base.versions = []) (hmigrate : base.migrate = some final)
  (hload : migrationUrl here settings = .ok settings.resolvedDatabaseUrl)

theorem AlembicDb.migrate_eq_some {db db' : AlembicDb} (h : db.migrate = some db') :
    db'.versions = db.versions ++ [revision] ∧ ∃ c, upgrade c = some db'.catalog := by
  rw [migrate] at h
  obtain ⟨c, -, h⟩ := Option.bind_eq_some_iff.mp h
  obtain ⟨c', hc', h⟩ := Option.bind_eq_some_iff.mp h
  split_ifs at h
  obtain rfl := Option.some.inj h
  exact ⟨rfl, c, hc'⟩

include hmigrate in
/-- The migration does not run a second time. -/
theorem AlembicDb.migrate_final : final.migrate = none := by
  obtain ⟨hversions, -⟩ := migrate_eq_some hmigrate
  by_contra hsome
  obtain ⟨db, hdb⟩ := Option.ne_none_iff_exists'.mp hsome
  rw [migrate] at hdb
  obtain ⟨c, -, hdb⟩ := Option.bind_eq_some_iff.mp hdb
  obtain ⟨c', -, hdb⟩ := Option.bind_eq_some_iff.mp hdb
  rw [if_pos (by simp [hversions])] at hdb
  cases hdb

/-- What holds of a job while the database is at its base or migrated: it has migrated it, or
observed that it is migrated, and if it fails another job has been faster. -/
def Job.Consistent (base final db : AlembicDb) (job : Job) : Prop :=
  (job.startedIn = base ∨ job.startedIn = final ∧ db = final) ∧
    match job.stage with
    | .started | .connected => True
    | .planned heads => heads = [] ∧ job.startedIn = base ∨ heads = [revision] ∧ db = final
    | .exited ok => db = final ∧ (ok = false → job.startedIn = base)
    | .crashed => True

theorem Job.Consistent.of_migrated {db : AlembicDb} {job : Job} (h : job.Consistent base final db) :
    job.Consistent base final final := by
  obtain ⟨hstart, hstage⟩ := h
  refine ⟨hstart.imp_right fun h => ⟨h.1, rfl⟩, ?_⟩
  cases hjob : job.stage with
  | started => trivial
  | connected => trivial
  | planned heads =>
    rw [hjob] at hstage
    exact hstage.imp_right fun h => ⟨h.1, rfl⟩
  | exited ok =>
    rw [hjob] at hstage
    exact ⟨rfl, hstage.2⟩
  | crashed => trivial

include hmigrate in
/-- Only the base can be migrated. -/
theorem AlembicDb.eq_final_of_migrate {db db' : AlembicDb} (hdb : db = base ∨ db = final)
    (h : db.migrate = some db') : db = base ∧ db' = final := by
  obtain rfl | rfl := hdb
  · rw [hmigrate] at h
    exact ⟨rfl, (Option.some.inj h).symm⟩
  · rw [migrate_final hmigrate] at h
    cases h

include hbase hmigrate hload in
/-- What a step of a job does to the database and to the job. -/
theorem Job.Run.consistent {db db' : AlembicDb} {job job' : Job}
    (h : Job.Run here settings (db, job) (db', job')) (hdb : db = base ∨ db = final)
    (hjob : job.Consistent base final db) :
    (db' = db ∨ db' = final) ∧ job'.Consistent base final db' := by
  obtain ⟨hstep, hstart⟩ := h
  obtain ⟨startedIn, stage⟩ := job
  obtain ⟨startedIn', stage'⟩ := job'
  obtain rfl : startedIn' = startedIn := hstart
  obtain ⟨hstartedIn, hstage⟩ := hjob
  obtain ⟨hversions, -⟩ := AlembicDb.migrate_eq_some hmigrate
  cases hstep with
  | load => exact ⟨.inl rfl, hstartedIn, trivial⟩
  | loadError herror =>
    rw [hload] at herror
    cases herror
  | elsewhere hurl hother =>
    rw [hload] at hurl
    exact absurd (Except.ok.inj hurl).symm hother
  | read =>
    refine ⟨.inl rfl, hstartedIn, ?_⟩
    obtain rfl | rfl := hdb
    · obtain h | ⟨-, rfl⟩ := hstartedIn
      · exact .inl ⟨hbase, h⟩
      · simp at hversions
    · exact .inr ⟨by rw [hversions, hbase]; rfl, rfl⟩
  | current =>
    obtain ⟨h, -⟩ | ⟨-, hfinal⟩ := hstage
    · cases h
    · exact ⟨.inl rfl, hstartedIn, hfinal, fun h => by cases h⟩
  | unknown hne hne' =>
    obtain ⟨h, -⟩ | ⟨h, -⟩ := hstage
    · exact absurd h hne
    · exact absurd h hne'
  | commit hcommit =>
    obtain ⟨rfl, rfl⟩ := AlembicDb.eq_final_of_migrate hmigrate hdb hcommit
    exact ⟨.inr rfl, hstartedIn.imp_right fun h => ⟨h.1, rfl⟩, rfl, fun h => by cases h⟩
  | refused hrefused =>
    obtain ⟨-, hstarted⟩ | ⟨h, -⟩ := hstage
    · obtain rfl | rfl := hdb
      · rw [hmigrate] at hrefused
        cases hrefused
      · exact ⟨.inl rfl, .inl hstarted, rfl, fun _ => hstarted⟩
    · cases h
  | lost hcommit =>
    obtain ⟨rfl, rfl⟩ := AlembicDb.eq_final_of_migrate hmigrate hdb hcommit
    exact ⟨.inr rfl, hstartedIn.imp_right fun h => ⟨h.1, rfl⟩, trivial⟩
  | crash => exact ⟨.inl rfl, hstartedIn, trivial⟩

include hbase hmigrate hload in
/-- The step rule: the database is at its base or migrated, and every job is consistent
with it. -/
theorem Job.keeps : Processes.Keeps Job.Start (Job.Run here settings)
    (fun db => db = base ∨ db = final) (fun db job => job.Consistent base final db) where
  spawn := by
    rintro db job hdb rfl
    refine ⟨?_, trivial⟩
    obtain rfl | rfl := hdb
    · exact .inl rfl
    · exact .inr ⟨rfl, rfl⟩
  own := by
    intro db job db' job' hdb hjob hrun
    obtain ⟨hdb', hjob'⟩ := hrun.consistent hbase hmigrate hload hdb hjob
    refine ⟨?_, hjob'⟩
    obtain rfl | rfl := hdb'
    · exact hdb
    · exact .inr rfl
  others := by
    intro db job db' job' other hdb hjob hrun hother
    obtain ⟨hdb', -⟩ := hrun.consistent hbase hmigrate hload hdb hjob
    obtain rfl | rfl := hdb'
    · exact hother
    · exact hother.of_migrated

end Migrates

/-- A migration that fails leaves the database as it is, and no job succeeds. -/
theorem Job.keeps_unmigrated {base : AlembicDb} (hbase : base.versions = [])
    (hnone : base.migrate = none)
    (hload : migrationUrl here settings = .ok settings.resolvedDatabaseUrl) :
    Processes.Keeps Job.Start (Job.Run here settings) (fun db => db = base)
      (fun _ job => job.stage ≠ .exited true ∧
        ∀ heads, job.stage = .planned heads → heads = []) where
  spawn := by
    rintro db job rfl rfl
    exact ⟨by simp, by simp⟩
  own := by
    rintro db ⟨startedIn, stage⟩ db' ⟨startedIn', stage'⟩ rfl ⟨-, hplanned⟩ ⟨hstep, -⟩
    cases hstep with
    | load => exact ⟨rfl, by simp, by simp⟩
    | loadError => exact ⟨rfl, by simp, by simp⟩
    | elsewhere hurl hother =>
      rw [hload] at hurl
      exact absurd (Except.ok.inj hurl).symm hother
    | read => exact ⟨rfl, by simp, by simpa using hbase⟩
    | current => simp at hplanned
    | unknown hne => exact absurd (hplanned _ rfl) hne
    | commit h =>
      rw [hnone] at h
      cases h
    | refused => exact ⟨rfl, by simp, by simp⟩
    | lost h =>
      rw [hnone] at h
      cases h
    | crash => exact ⟨rfl, by simp, by simp⟩
  others := fun _ _ _ hother => hother

/-- The empty database, migrated. -/
def migratedDb : AlembicDb := ⟨versionTable ++ initialSchema, [revision]⟩

theorem migrate_empty : AlembicDb.migrate ⟨[], []⟩ = some migratedDb := by
  have hversions : Catalog.createAll [] versionTable = some versionTable :=
    (Catalog.createAll_iff (by decide +kernel)).mpr ⟨by decide +kernel, rfl⟩
  have hupgrade : upgrade versionTable = some (versionTable ++ initialSchema) :=
    upgrade_eq_some_iff.mpr ⟨by decide +kernel, rfl⟩
  rw [AlembicDb.migrate, if_neg (by decide), hversions, Option.bind_some, hupgrade]
  rfl

/-- Two jobs that have been started in the empty database. -/
def raceWorld (db : AlembicDb) (first second : JobStage) : Processes AlembicDb Job :=
  ⟨db, [⟨⟨[], []⟩, first⟩, ⟨⟨[], []⟩, second⟩]⟩

theorem percentFree_hexPassword : hexPasswordSettings.PercentFree :=
  (percent_notMem_resolvedDatabaseUrl _).mp (by decide +kernel)

/-- In the image, with a password of hexadecimal digits. -/
abbrev raceRun : AlembicDb × Job → AlembicDb × Job → Prop := Job.Run "/app" hexPasswordSettings

/-- Both jobs read the empty database, the first commits, and the second fails on a name. -/
theorem jobsReach_race : JobsReach "/app" hexPasswordSettings (unmigrated [])
    (raceWorld migratedDb (.exited true) (.exited false)) := by
  let empty : AlembicDb := ⟨[], []⟩
  let alone : Processes AlembicDb Job := ⟨empty, [⟨empty, .started⟩]⟩
  have hhere : '%' ∉ "/app".toList := by decide
  have hload := migrationUrl_of_percentFree hhere percentFree_hexPassword
  have hfirst : Processes.Step Job.Start raceRun (unmigrated []) alone :=
    .spawn (unmigrated []) ⟨empty, .started⟩ rfl
  have hsecond : Processes.Step Job.Start raceRun alone (raceWorld empty .started .started) :=
    .spawn alone ⟨empty, .started⟩ rfl
  have hload₁ : Processes.Step Job.Start raceRun (raceWorld empty .started .started)
      (raceWorld empty .connected .started) :=
    .run (raceWorld empty .started .started) 0 rfl ⟨.load hload, rfl⟩
  have hload₂ : Processes.Step Job.Start raceRun (raceWorld empty .connected .started)
      (raceWorld empty .connected .connected) :=
    .run (raceWorld empty .connected .started) 1 rfl ⟨.load hload, rfl⟩
  have hread₁ : Processes.Step Job.Start raceRun (raceWorld empty .connected .connected)
      (raceWorld empty (.planned []) .connected) :=
    .run (raceWorld empty .connected .connected) 0 rfl ⟨.read empty, rfl⟩
  have hread₂ : Processes.Step Job.Start raceRun (raceWorld empty (.planned []) .connected)
      (raceWorld empty (.planned []) (.planned [])) :=
    .run (raceWorld empty (.planned []) .connected) 1 rfl ⟨.read empty, rfl⟩
  have hcommit : Processes.Step Job.Start raceRun (raceWorld empty (.planned []) (.planned []))
      (raceWorld migratedDb (.exited true) (.planned [])) :=
    .run (raceWorld empty (.planned []) (.planned [])) 0 rfl ⟨.commit migrate_empty, rfl⟩
  have hrefused : Processes.Step Job.Start raceRun
      (raceWorld migratedDb (.exited true) (.planned []))
      (raceWorld migratedDb (.exited true) (.exited false)) :=
    .run (raceWorld migratedDb (.exited true) (.planned [])) 1 rfl
      ⟨.refused (AlembicDb.migrate_final migrate_empty), rfl⟩
  exact (((((((Relation.ReflTransGen.single hfirst).tail hsecond).tail hload₁).tail hload₂).tail
    hread₁).tail hread₂).tail hcommit).tail hrefused

end TelemetryApi
