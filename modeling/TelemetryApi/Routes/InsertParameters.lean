import TelemetryApi.Routes.NdjsonBatch

/-!
# The parameters of the INSERT

All rows of a batch go into one statement, which binds every value of every row. What
keeps the statement within the limit of asyncpg is the cap on the events of a request,
a setting without a bound of its own.
-/

namespace TelemetryApi

/-- The columns of `Event` with a `default`, which SQLAlchemy binds where a row leaves
them out. -/
def Event.clientDefaults : List String :=
  ["id", "device_version", "user_id", "platform", "max_version"]

/-- The columns that a row binds: those of its `dict`, then the generated ones. -/
def OrmRow.boundColumns (row : OrmRow) : List String :=
  row.toDict.map (·.1) ++ Event.clientDefaults.filter fun name => name ∉ row.toDict.map (·.1)

/-- The parameters of `pg_insert(Event).values(rows)`, as column and number of the row. -/
def insertBinds (rows : List OrmRow) : List (String × Nat) :=
  rows.zipIdx.flatMap fun entry => entry.1.boundColumns.map fun name => (name, entry.2)

/-- A row binds its seventeen columns and the generated id. -/
theorem length_boundColumns (row : OrmRow) : row.boundColumns.length = 18 := rfl

theorem length_insertBinds (rows : List OrmRow) : (insertBinds rows).length = 18 * rows.length := by
  have hlength : ∀ entry ∈ rows.zipIdx, (entry.1.boundColumns.map fun name =>
      (name, entry.2)).length = 18 := by
    intro entry _
    rw [List.length_map, length_boundColumns]
  rw [insertBinds, List.length_flatMap, List.map_congr_left hlength, List.map_const',
    List.sum_replicate_nat, List.length_zipIdx, Nat.mul_comm]

theorem insertBinds_le_iff (rows : List OrmRow) :
    (insertBinds rows).length ≤ maxBinds ↔ rows.length ≤ 1820 := by
  rw [length_insertBinds, maxBinds]
  omega

/-- The driver in front of a database. -/
def Database.limited (db : Database) : Database where
  execute store rows :=
    if (insertBinds rows).length ≤ maxBinds then db.execute store rows
    else some tooManyBinds
  commit := db.commit

/-- A healthy database behind the driver: it refuses an `INSERT` for a row of its own or for
too many parameters, and commits. -/
structure Database.RowByRow (db : Database) (Takes : OrmRow → Prop) : Prop where
  execute_iff : ∀ store rows, rows ≠ [] → (db.execute store rows = none ↔
    (insertBinds rows).length ≤ maxBinds ∧ ∀ row ∈ rows, Takes row)
  commit_eq : ∀ store rows, db.commit store rows = .done

theorem Database.limited_execute_eq_none {db : Database} {store rows : List OrmRow} :
    db.limited.execute store rows = none ↔
      (insertBinds rows).length ≤ maxBinds ∧ db.execute store rows = none := by
  rw [Database.limited]
  simp only
  split_ifs with hbinds
  · simp [hbinds]
  · simp [hbinds]

variable (settings : Settings) (rt : Runtime) (db : Database) (store : List OrmRow)

/-- A batch within the limits of a request has no more rows than the cap. -/
theorem length_rows_le {req : Request} {b : Batch} (hb : prepareBatch settings rt req = .ok b) :
    (b.rows.length : Int) ≤ settings.maxEventsPerRequest := by
  obtain ⟨-, -, hcap, -, hrows, -⟩ := (prepareBatch_eq_ok_iff settings rt).mp hb
  have hle : b.rows.length ≤ b.parsed.rawObjects.length := by
    rw [hrows]
    exact List.length_filterMap_le _ _
  omega

/-- A batch above the limit of the driver ends in a 500 and stores nothing. -/
theorem postEvents_limited {req : Request} {b : Batch}
    (hauth : settings.requireIngestToken req.authorization = .ok ())
    (hb : prepareBatch settings rt req = .ok b) (hmany : 1820 < b.rows.length) :
    (postEvents settings rt db.limited store req).1.status = 500 ∧
      (postEvents settings rt db.limited store req).2 = [] := by
  have hbinds : ¬ (insertBinds b.rows).length ≤ maxBinds := by
    rw [insertBinds_le_iff]
    omega
  have hne : b.rows ≠ [] := List.ne_nil_of_length_pos (by omega)
  have hrefused : db.limited.execute store b.rows ≠ none :=
    fun hnone => hbinds (Database.limited_execute_eq_none.mp hnone).1
  rw [postEvents_of_refused settings rt _ store hauth hb hne hrefused]
  exact ⟨rfl, rfl⟩

/-- With that cap, every batch that the checks let through binds no more parameters than
asyncpg accepts. -/
def InsertLaw (cap : Int) : Prop :=
  ∀ (settings : Settings) (rt : Runtime) (req : Request) (b : Batch),
    settings.maxEventsPerRequest = cap → prepareBatch settings rt req = .ok b →
      (insertBinds b.rows).length ≤ maxBinds

/-- A body with that many events. -/
def fullRequest (count : Nat) : Request :=
  .ndjson none (ndjsonBody sampleRuntime (List.replicate count sampleLine))

theorem length_ndjsonBody_replicate (count : Nat) :
    (ndjsonBody sampleRuntime (List.replicate count sampleLine)).length =
      count * (sampleText.length + 1) := by
  rw [ndjsonBody, List.length_flatMap, List.map_replicate, List.sum_replicate_nat]
  rfl

/-- The batch of the smallest body that overfills the statement. -/
theorem prepareBatch_fullRequest (cap : Int) (h : 1820 < cap) :
    ∃ b, prepareBatch { maxEventsPerRequest := cap } sampleRuntime (fullRequest 1821) = .ok b ∧
      b.rows.length = 1821 := by
  have hbody := isNdjson_ndjsonBody sampleRuntime (List.replicate 1821 sampleLine)
  rw [List.map_replicate] at hbody
  have hsize : ((ndjsonBody sampleRuntime (List.replicate 1821 sampleLine)).length : Int) ≤
      ({ maxEventsPerRequest := cap } : Settings).maxBodyBytes := by
    rw [length_ndjsonBody_replicate]
    show ((1821 * (sampleText.length + 1) : Nat) : Int) ≤ 4 * 1024 * 1024
    decide +kernel
  have hcap : ((List.replicate 1821 sampleLine.object).length : Int) ≤
      ({ maxEventsPerRequest := cap } : Settings).maxEventsPerRequest := by
    rw [List.length_replicate]
    exact h
  have hgood : ∀ o ∈ List.replicate 1821 sampleLine.object, ¬ BadProps o := by
    intro o ho
    rw [List.eq_of_mem_replicate ho]
    decide +kernel
  refine ⟨_, prepareBatch_ndjson hbody hsize hcap hgood, ?_⟩
  have hsome : (acceptedRow sampleRuntime sampleEvent).isSome := by decide +kernel
  obtain ⟨row, hrow⟩ := Option.isSome_iff_exists.mp hsome
  have hall : ∀ n, (acceptedRows sampleRuntime (List.replicate n sampleEvent)).length = n := by
    intro n
    induction n with
    | zero => rfl
    | succ n ih =>
      rw [List.replicate_succ, acceptedRows, List.filterMap_cons_some hrow, List.length_cons,
        ← acceptedRows, ih]
  exact hall 1821

/-- The cap keeps the statement within the limit exactly up to 1820 events. -/
theorem insertLaw_iff (cap : Int) : InsertLaw cap ↔ cap ≤ 1820 := by
  constructor
  · intro hlaw
    by_contra habove
    obtain ⟨b, hb, hlength⟩ := prepareBatch_fullRequest cap (by omega)
    have hle := hlaw _ sampleRuntime _ b rfl hb
    rw [insertBinds_le_iff] at hle
    omega
  · rintro hcap settings rt req b rfl hb
    have hle := length_rows_le settings rt hb
    rw [insertBinds_le_iff]
    omega

/-- With a cap of 1821, as many events in one body are let through, bind 32778
parameters and end in a 500. -/
theorem insertLaw_overfull :
    ¬ InsertLaw 1821 ∧
      ∃ b, prepareBatch { maxEventsPerRequest := 1821 } sampleRuntime (fullRequest 1821) = .ok b ∧
        (insertBinds b.rows).length = 32778 ∧
        (postEvents { maxEventsPerRequest := 1821 } sampleRuntime Database.accepting.limited []
          (fullRequest 1821)).1.status = 500 := by
  obtain ⟨b, hb, hlength⟩ := prepareBatch_fullRequest 1821 (by decide)
  have hbinds : (insertBinds b.rows).length = 32778 := by rw [length_insertBinds, hlength]
  refine ⟨fun hlaw => ?_, b, hb, hbinds, ?_⟩
  · have hle := hlaw _ sampleRuntime _ b rfl hb
    rw [hbinds] at hle
    exact absurd hle (by decide)
  · exact (postEvents_limited _ sampleRuntime .accepting [] rfl hb (by omega)).1

end TelemetryApi
