import TelemetryApi.Foundations.Catalog
import TelemetryApi.Models

/-!
# The first migration

`upgrade` and `downgrade` of `alembic/versions/0001_initial.py`, on a catalog that may
have other objects, and what the migrated table takes from an `INSERT` of the `Event`
model. The index behind the primary key has a name that PostgreSQL chooses free.
-/

namespace TelemetryApi

/-- The columns of `op.create_table("events", ...)`. -/
def eventsColumns : List (TableColumn SqlType) :=
  [{ name := "id", type := .builtin .uuid, nullable := false },
    { name := "received_at", type := .builtin .timestamptz, nullable := false,
      serverDefault := some "now()" },
    { name := "vendor", type := .builtin (.string 64), nullable := false },
    { name := "device_name", type := .builtin (.string 128), nullable := false },
    { name := "device_version", type := .builtin (.string 64), nullable := false,
      serverDefault := some "" },
    { name := "device_id", type := .builtin (.string 64), nullable := false },
    { name := "session_id", type := .builtin (.string 64), nullable := false },
    { name := "user_id", type := .builtin (.string 256), nullable := false,
      serverDefault := some "" },
    { name := "platform", type := .builtin (.string 64), nullable := false,
      serverDefault := some "" },
    { name := "max_version", type := .builtin (.string 128), nullable := false,
      serverDefault := some "" },
    { name := "kind", type := .named "event_kind", nullable := false },
    { name := "level", type := .named "event_level", nullable := false },
    { name := "name", type := .builtin (.string 256), nullable := false },
    { name := "message", type := .builtin .text, nullable := true },
    { name := "ts", type := .builtin .timestamptz, nullable := false },
    { name := "ts_ms", type := .builtin .bigInteger, nullable := false },
    { name := "value", type := .builtin .float, nullable := true },
    { name := "unit", type := .builtin (.string 32), nullable := true },
    { name := "props", type := .builtin .jsonb, nullable := false,
      serverDefault := some "'\x7b\x7d'::jsonb" }]

/-- The objects that `upgrade` creates. The enum types come in front of the table that
declares them. -/
def initialSchema : Catalog SqlType :=
  [("event_kind", .enumType ["event", "error", "metric", "crash"]),
    ("event_level", .enumType ["info", "warning", "error", "fatal"]),
    ("events", .table eventsColumns),
    ("ix_events_received_at", .index "events" ["received_at"] "btree"),
    ("ix_events_vendor", .index "events" ["vendor"] "btree"),
    ("ix_events_device_name", .index "events" ["device_name"] "btree"),
    ("ix_events_device_id", .index "events" ["device_id"] "btree"),
    ("ix_events_session_id", .index "events" ["session_id"] "btree"),
    ("ix_events_kind", .index "events" ["kind"] "btree"),
    ("ix_events_level", .index "events" ["level"] "btree"),
    ("ix_events_name", .index "events" ["name"] "btree"),
    ("ix_events_vendor_device_ts", .index "events" ["vendor", "device_name", "ts"] "btree"),
    ("ix_events_kind_level_ts", .index "events" ["kind", "level", "ts"] "btree"),
    ("ix_events_props_gin", .index "events" ["props"] "gin")]

def upgrade (c : Catalog SqlType) : Option (Catalog SqlType) := c.createAll initialSchema

/-- The objects that `downgrade` drops, in its order. -/
def initialDrops : List (ObjectKind × String) :=
  [(.index, "ix_events_props_gin"),
    (.index, "ix_events_kind_level_ts"),
    (.index, "ix_events_vendor_device_ts"),
    (.index, "ix_events_name"),
    (.index, "ix_events_level"),
    (.index, "ix_events_kind"),
    (.index, "ix_events_session_id"),
    (.index, "ix_events_device_id"),
    (.index, "ix_events_device_name"),
    (.index, "ix_events_vendor"),
    (.index, "ix_events_received_at"),
    (.table, "events"),
    (.enumType, "event_level"),
    (.enumType, "event_kind")]

def downgrade (c : Catalog SqlType) : Option (Catalog SqlType) := c.dropAll initialDrops

theorem initialDrops_eq : initialDrops = Catalog.undo initialSchema := by decide

theorem createAll_initialSchema : (Catalog.createAll [] initialSchema).isSome := by
  decide +kernel

variable {c c' : Catalog SqlType}

/-- The migration fails exactly on a name that is taken. -/
theorem upgrade_eq_some_iff :
    upgrade c = some c' ↔ c.FreeAll initialSchema ∧ c' = c ++ initialSchema :=
  Catalog.createAll_iff createAll_initialSchema

/-- On every well-formed catalog: `upgrade` runs through exactly when none of its names is
taken, it leaves a well-formed catalog with its objects behind the others, and
`downgrade` then restores the catalog to what it was. -/
theorem downgrade_upgrade (c : Catalog SqlType) (hc : c.WellFormed) :
    ((upgrade c).isSome ↔ c.FreeAll initialSchema) ∧
      ∀ c', upgrade c = some c' →
        c' = c ++ initialSchema ∧ c'.WellFormed ∧ downgrade c' = some c := by
  refine ⟨?_, ?_⟩
  · rw [Option.isSome_iff_exists]
    simp only [upgrade_eq_some_iff, exists_and_left, exists_eq, and_true]
  · intro c' h
    refine ⟨(upgrade_eq_some_iff.mp h).2, hc.createAll h, ?_⟩
    rw [downgrade, initialDrops_eq]
    exact Catalog.dropAll_createAll hc h

/-- Beside the table in which Alembic keeps its revision. -/
theorem downgrade_upgrade_versionTable :
    let c : Catalog SqlType := [("alembic_version", .table
      [{ name := "version_num", type := .builtin (.string 32), nullable := false }])]
    ((upgrade c).isSome ↔ c.FreeAll initialSchema) ∧
      ∀ c', upgrade c = some c' →
        c' = c ++ initialSchema ∧ c'.WellFormed ∧ downgrade c' = some c :=
  downgrade_upgrade _ ⟨by decide +kernel, by decide +kernel, by decide +kernel⟩

/-! ## What the migrated table takes -/

/-- A column as the `INSERT` meets it: the labels of an enum type are looked up. -/
def TableColumn.resolve (c : Catalog SqlType) (column : TableColumn SqlType) : Option Column :=
  match column.type with
  | .builtin type => some ⟨column.name, type, column.nullable, column.serverDefault.isSome⟩
  | .named name => (c.enumLabels name).map fun labels =>
    ⟨column.name, .enum labels, column.nullable, column.serverDefault.isSome⟩

def resolvedColumns (c : Catalog SqlType) (table : String) : Option (List Column) :=
  (c.tableColumns table).bind fun columns => columns.mapM (TableColumn.resolve c)

/-- A value of the `INSERT`: one of the row, or the `uuid4()` of the model. -/
inductive InsertValue where
  | row (v : SqlValue)
  | uuid4

/-- The values that `pg_insert(Event).values(rows)` sends for a row. -/
def OrmRow.insertValues (row : OrmRow) : List (String × InsertValue) :=
  ("id", .uuid4) :: row.toDict.map fun kv => (kv.1, .row kv.2)

variable (rt : Runtime)

def Column.Takes (c : Column) : InsertValue → Prop
  | .row v => c.Admits rt v
  | .uuid4 => c.type matches .uuid

/-- The table has every column that the `INSERT` names, each takes its value, and a column
that it does not name can be filled in. -/
def TakesInsert (columns : List Column) (values : List (String × InsertValue)) : Prop :=
  (∀ kv ∈ values, kv.1 ∈ columns.map (·.name)) ∧
    ∀ c ∈ columns, match values.lookup c.name with
      | some v => c.Takes rt v
      | none => c.hasDefault ∨ c.nullable

/-- The migrated table differs from the model in one default: the model generates `id`. -/
theorem resolvedColumns_upgrade (h : upgrade c = some c') :
    resolvedColumns c' "events" = some (⟨"id", .uuid, false, false⟩ :: Event.columns.tail) := by
  obtain ⟨hfree, rfl⟩ := upgrade_eq_some_iff.mp h
  have hmem : ∀ name o, (name, o) ∈ initialSchema → c.Free o.kind name := fun name o => hfree (name, o)
  have htable : Catalog.tableColumns (c ++ initialSchema) "events" = some eventsColumns :=
    Catalog.tableColumns_append (hmem "events" (.table eventsColumns) (by simp [initialSchema])) _
  have hkind : Catalog.enumLabels (c ++ initialSchema) "event_kind" =
      some ["event", "error", "metric", "crash"] :=
    Catalog.enumLabels_append (hmem "event_kind" (.enumType _) (by simp [initialSchema]; rfl)) _
  have hlevel : Catalog.enumLabels (c ++ initialSchema) "event_level" =
      some ["info", "warning", "error", "fatal"] :=
    Catalog.enumLabels_append (hmem "event_level" (.enumType _) (by simp [initialSchema]; rfl)) _
  rw [resolvedColumns, htable, Option.bind_some]
  simp only [eventsColumns, List.mapM_cons, List.mapM_nil, TableColumn.resolve, hkind, hlevel]
  rfl

theorem lookup_map_snd {α β : Type} (f : α → β) (l : List (String × α)) (k : String) :
    (l.map fun kv => (kv.1, f kv.2)).lookup k = (l.lookup k).map f := by
  induction l with
  | nil => rfl
  | cons kv l ih =>
    obtain ⟨k', v⟩ := kv
    rw [List.map_cons, List.lookup_cons, List.lookup_cons, ih]
    cases k == k' <;> rfl

/-- Every nullable column of the model has a value in the row, possibly null. -/
theorem exists_lookup_of_nullable (row : OrmRow) : ∀ c ∈ Event.columns, c.nullable →
    ∃ v, row.toDict.lookup c.name = some v := by
  simp [Event.columns, OrmRow.toDict, List.lookup_cons]

theorem takesInsert_migrated (row : OrmRow) :
    TakesInsert rt (⟨"id", .uuid, false, false⟩ :: Event.columns.tail) row.insertValues ↔
      row.InDomain rt := by
  have hnames : ∀ kv ∈ row.insertValues,
      kv.1 ∈ (⟨"id", .uuid, false, false⟩ :: Event.columns.tail : List Column).map (·.name) := by
    simp [OrmRow.insertValues, OrmRow.toDict, Event.columns]
  have hid : row.insertValues.lookup "id" = some .uuid4 := rfl
  have hothers : ∀ column ∈ Event.columns.tail, row.insertValues.lookup column.name =
      (row.toDict.lookup column.name).map .row := by
    intro column hcolumn
    have hne : ∀ column ∈ Event.columns.tail, (column.name == "id") = false := by decide +kernel
    rw [OrmRow.insertValues, List.lookup_cons, hne column hcolumn]
    exact lookup_map_snd _ _ _
  rw [TakesInsert, and_iff_right hnames, List.forall_mem_cons, OrmRow.InDomain]
  have hcolumns : Event.columns = ⟨"id", .uuid, false, true⟩ :: Event.columns.tail := rfl
  rw [hcolumns, List.forall_mem_cons, List.tail_cons]
  apply and_congr
  · rw [hid]
    exact iff_of_true rfl rfl
  · apply forall₂_congr
    intro column hcolumn
    rw [hothers column hcolumn]
    cases hv : row.toDict.lookup column.name with
    | some v => rfl
    | none =>
      apply or_iff_left
      intro hnull
      obtain ⟨v, hv'⟩ := exists_lookup_of_nullable row column (List.mem_of_mem_tail hcolumn) hnull
      rw [hv] at hv'
      cases hv'

/-- On every catalog that the migration has run on, the table takes the `INSERT` of a row
exactly when the row is in the domain of the model's columns. -/
theorem takesInsert_iff (c c' : Catalog SqlType) (h : upgrade c = some c') :
    ∃ columns, resolvedColumns c' "events" = some columns ∧
      ∀ row : OrmRow, TakesInsert rt columns row.insertValues ↔ row.InDomain rt :=
  ⟨_, resolvedColumns_upgrade h, takesInsert_migrated rt⟩

theorem takesInsert_iff_empty :
    ∃ columns, resolvedColumns initialSchema "events" = some columns ∧
      ∀ row : OrmRow, TakesInsert sampleRuntime columns row.insertValues ↔
        row.InDomain sampleRuntime :=
  takesInsert_iff sampleRuntime [] initialSchema
    (upgrade_eq_some_iff.mpr ⟨by decide +kernel, rfl⟩)

end TelemetryApi
