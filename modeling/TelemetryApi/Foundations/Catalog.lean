import Mathlib.Data.List.Nodup

/-!
# The catalog of a database

Enum types, tables, indexes and views with the names that they take, and the `CREATE`
and `DROP` statements. A script of `CREATE` statements either adds its objects or fails
on a name that is taken; dropping them in the opposite order takes them back.
-/

namespace TelemetryApi

variable {τ : Type*}

inductive ColumnType (τ : Type*) where
  | builtin (type : τ)
  | named (name : String)

structure TableColumn (τ : Type*) where
  name : String
  type : ColumnType τ
  nullable : Bool
  serverDefault : Option String := none

inductive SchemaObject (τ : Type*) where
  | enumType (labels : List String)
  | table (columns : List (TableColumn τ))
  | index (table : String) (columns : List String) (method : String)
  | view (tables : List String)

inductive ObjectKind where
  | enumType
  | table
  | index
  | view
  deriving DecidableEq

namespace ObjectKind

/-- Tables, indexes and views share one namespace. -/
def isRelation : ObjectKind → Bool
  | enumType => false
  | _ => true

/-- A table or view also takes the name of its row type. -/
def isType : ObjectKind → Bool
  | index => false
  | _ => true

theorem isRelation_or_isType (kind : ObjectKind) : kind.isRelation ∨ kind.isType := by
  cases kind <;> simp [isRelation, isType]

end ObjectKind

namespace SchemaObject

def kind : SchemaObject τ → ObjectKind
  | enumType _ => .enumType
  | table _ => .table
  | index _ _ _ => .index
  | view _ => .view

def ofColumn (c : TableColumn τ) : Option (ObjectKind × String) :=
  match c.type with
  | .builtin _ => none
  | .named name => some (.enumType, name)

/-- The objects that an object cannot exist without. -/
def uses : SchemaObject τ → List (ObjectKind × String)
  | enumType _ => []
  | table columns => columns.filterMap ofColumn
  | index t _ _ => [(.table, t)]
  | view tables => tables.map fun t => (.table, t)

/-- Nothing of one kind is made of others of it. -/
theorem notMem_uses_kind (o : SchemaObject τ) (name : String) : (o.kind, name) ∉ o.uses := by
  cases o with
  | enumType => simp [uses]
  | table columns =>
    rw [uses, List.mem_filterMap]
    rintro ⟨c, -, hc⟩
    rw [ofColumn] at hc
    split at hc <;> simp [kind] at hc
  | index => simp [uses, kind]
  | view => simp [uses, kind]

end SchemaObject

/-- The objects with their names, in the order of their creation. -/
abbrev Catalog (τ : Type*) := List (String × SchemaObject τ)

namespace Catalog

variable (c : Catalog τ)

/-- The names in one of the namespaces. -/
def names (space : ObjectKind → Bool) : List String :=
  (c.filter fun e => space e.2.kind).map (·.1)

def relations : List String := c.names ObjectKind.isRelation

def types : List String := c.names ObjectKind.isType

def has (kind : ObjectKind) (name : String) : Bool :=
  c.any fun e => e.1 == name && e.2.kind == kind

def hasColumns (table : String) (columns : List String) : Bool :=
  c.any fun e => e.1 == table && match e.2 with
    | .table columns' => columns.all fun name => columns'.any (·.name == name)
    | _ => false

/-- What the object uses is there. -/
def supports : SchemaObject τ → Bool
  | .index table columns _ => c.hasColumns table columns
  | o => o.uses.all fun u => c.has u.1 u.2

/-- The name is free for an object of the kind. -/
def Free (kind : ObjectKind) (name : String) : Prop :=
  (kind.isRelation → name ∉ c.relations) ∧ (kind.isType → name ∉ c.types)

instance (kind : ObjectKind) (name : String) : Decidable (c.Free kind name) :=
  inferInstanceAs (Decidable (_ ∧ _))

def create (e : String × SchemaObject τ) : Option (Catalog τ) :=
  if c.Free e.2.kind e.1 ∧ c.supports e.2 then some (c ++ [e]) else none

/-- `DROP` without `CASCADE`: the indexes of a table go with it, anything else that uses
the object keeps it. -/
def drop (d : ObjectKind × String) : Option (Catalog τ) :=
  if c.has d.1 d.2 ∧ ∀ e ∈ c, d ∈ e.2.uses → e.2.kind = .index then
    some (c.filter fun e => !(e.1 == d.2 && e.2.kind == d.1) && !(e.2.uses.contains d))
  else none

/-- The statements of a script, in one transaction. -/
def createAll (script : Catalog τ) : Option (Catalog τ) := script.foldlM create c

def dropAll (drops : List (ObjectKind × String)) : Option (Catalog τ) := drops.foldlM drop c

/-- The `DROP` statements that take a script back. -/
def undo (script : Catalog τ) : List (ObjectKind × String) :=
  script.reverse.map fun e => (e.2.kind, e.1)

/-- No name is taken twice, and everything that is used is there. -/
structure WellFormed : Prop where
  relations_nodup : c.relations.Nodup
  types_nodup : c.types.Nodup
  supported : ∀ e ∈ c, c.supports e.2

/-! ## Creating -/

variable {c} {c' script : Catalog τ} {kind : ObjectKind} {name : String} {o : SchemaObject τ}

theorem mem_names {space : ObjectKind → Bool} {e : String × SchemaObject τ} (he : e ∈ c)
    (hkind : space e.2.kind) : e.1 ∈ c.names space :=
  List.mem_map_of_mem (List.mem_filter.mpr ⟨he, hkind⟩)

theorem nodup_names_concat {space : ObjectKind → Bool} {e : String × SchemaObject τ}
    (hnodup : (c.names space).Nodup) (hfree : space e.2.kind → e.1 ∉ c.names space) :
    (names (c ++ [e]) space).Nodup := by
  rw [names, List.filter_append, List.filter_singleton, List.map_append, ← names]
  cases hkind : space e.2.kind with
  | true => exact List.nodup_append_comm.mp (List.nodup_cons.mpr ⟨hfree hkind, hnodup⟩)
  | false => simpa using hnodup

theorem has_iff : c.has kind name ↔ ∃ e ∈ c, e.1 = name ∧ e.2.kind = kind := by
  simp [has, List.any_eq_true]

theorem Free.not_has (h : c.Free kind name) : ¬ c.has kind name := by
  rw [has_iff]
  rintro ⟨e, he, rfl, rfl⟩
  obtain hkind | hkind := e.2.kind.isRelation_or_isType
  · exact h.1 hkind (mem_names he hkind)
  · exact h.2 hkind (mem_names he hkind)

theorem has_of_supports (h : c.supports o) : ∀ u ∈ o.uses, c.has u.1 u.2 := by
  cases o with
  | index table columns method =>
    intro u hu
    rw [SchemaObject.uses, List.mem_singleton] at hu
    subst hu
    obtain ⟨e, he, hcolumns⟩ := List.any_eq_true.mp h
    obtain ⟨hname, hkind⟩ := Bool.and_eq_true_iff.mp hcolumns
    rw [has_iff]
    refine ⟨e, he, eq_of_beq hname, ?_⟩
    split at hkind
    · rename_i heq
      rw [heq]
      rfl
    · cases hkind
  | enumType => exact List.all_eq_true.mp h
  | table => exact List.all_eq_true.mp h
  | view => exact List.all_eq_true.mp h

theorem has_append (c c' : Catalog τ) (kind : ObjectKind) (name : String) :
    has (c ++ c') kind name = (c.has kind name || c'.has kind name) :=
  List.any_append

/-- What supports an object supports it among others. -/
theorem supports_append (h : c'.supports o) (c : Catalog τ) : supports (c ++ c') o := by
  cases o with
  | index table columns method =>
    rw [supports, hasColumns, List.any_append]
    exact Bool.or_eq_true_iff.mpr (.inr h)
  | _ =>
    apply List.all_eq_true.mpr
    intro u hu
    rw [has_append]
    exact Bool.or_eq_true_iff.mpr (.inr (has_of_supports h u hu))

theorem free_append_iff (c c' : Catalog τ) (kind : ObjectKind) (name : String) :
    Free (c ++ c') kind name ↔ c.Free kind name ∧ c'.Free kind name := by
  simp only [Free, relations, types, names, List.filter_append, List.map_append, List.mem_append, not_or]
  tauto

theorem supports_mono (h : c.supports o) (c' : Catalog τ) : supports (c ++ c') o := by
  cases o with
  | index table columns method =>
    rw [supports, hasColumns, List.any_append]
    exact Bool.or_eq_true_iff.mpr (.inl h)
  | _ =>
    apply List.all_eq_true.mpr
    intro u hu
    rw [has_append]
    exact Bool.or_eq_true_iff.mpr (.inl (has_of_supports h u hu))

theorem create_eq_some {e : String × SchemaObject τ} (h : c.create e = some c') :
    c.Free e.2.kind e.1 ∧ c.supports e.2 ∧ c' = c ++ [e] := by
  rw [create] at h
  split_ifs at h with hcond
  exact ⟨hcond.1, hcond.2, (Option.some.inj h).symm⟩

theorem WellFormed.create {e : String × SchemaObject τ} (hc : c.WellFormed)
    (h : c.create e = some c') : c'.WellFormed := by
  obtain ⟨hfree, hsupports, rfl⟩ := create_eq_some h
  refine ⟨nodup_names_concat hc.relations_nodup hfree.1,
    nodup_names_concat hc.types_nodup hfree.2, ?_⟩
  intro e' he'
  obtain he' | he' := List.mem_append.mp he'
  · exact supports_mono (hc.supported e' he') _
  · rw [List.mem_singleton.mp he']
    exact supports_mono hsupports _

/-- A new object can be dropped again, and nothing else changes. -/
theorem drop_create {e : String × SchemaObject τ} (hc : c.WellFormed)
    (h : c.create e = some c') : c'.drop (e.2.kind, e.1) = some c := by
  obtain ⟨hfree, -, rfl⟩ := create_eq_some h
  have hunused : ∀ e' ∈ c, (e.2.kind, e.1) ∉ e'.2.uses := by
    intro e' he' huses
    exact hfree.not_has (has_of_supports (hc.supported e' he') _ huses)
  rw [drop, if_pos]
  · rw [List.filter_append, List.filter_singleton]
    have hold : c.filter (fun e' => !(e'.1 == e.1 && e'.2.kind == e.2.kind) &&
        !(e'.2.uses.contains (e.2.kind, e.1))) = c := by
      apply List.filter_eq_self.mpr
      intro e' he'
      have hother : ¬ (e'.1 = e.1 ∧ e'.2.kind = e.2.kind) := by
        intro hsame
        exact hfree.not_has (has_iff.mpr ⟨e', he', hsame⟩)
      simp only [hunused e' he', List.contains_eq_mem, decide_false, Bool.not_false,
        Bool.and_true, Bool.not_eq_true', Bool.and_eq_false_iff, beq_eq_false_iff_ne]
      tauto
    rw [hold]
    simp
  · constructor
    · exact has_iff.mpr ⟨e, List.mem_append_right c (List.mem_singleton_self e), rfl, rfl⟩
    · intro e' he' huses
      obtain he' | he' := List.mem_append.mp he'
      · exact absurd huses (hunused e' he')
      · rw [List.mem_singleton.mp he'] at huses
        exact absurd huses (e.2.notMem_uses_kind e.1)

/-! ## Scripts -/

theorem createAll_cons (e : String × SchemaObject τ) :
    c.createAll (e :: script) = (c.create e).bind fun c' => c'.createAll script :=
  List.foldlM_cons

theorem dropAll_append (drops drops' : List (ObjectKind × String)) :
    c.dropAll (drops ++ drops') = (c.dropAll drops).bind fun c' => c'.dropAll drops' :=
  List.foldlM_append

theorem WellFormed.createAll (hc : c.WellFormed) (h : c.createAll script = some c') :
    c'.WellFormed := by
  induction script generalizing c with
  | nil =>
    obtain rfl := Option.some.inj h
    exact hc
  | cons e script ih =>
    rw [createAll_cons] at h
    obtain ⟨c₁, hcreate, hrest⟩ := Option.bind_eq_some_iff.mp h
    exact ih (hc.create hcreate) hrest

theorem createAll_eq_append (h : c.createAll script = some c') : c' = c ++ script := by
  induction script generalizing c with
  | nil => rw [List.append_nil, Option.some.inj h]
  | cons e script ih =>
    rw [createAll_cons] at h
    obtain ⟨c₁, hcreate, hrest⟩ := Option.bind_eq_some_iff.mp h
    obtain ⟨-, -, rfl⟩ := create_eq_some hcreate
    rw [ih hrest, List.append_assoc, List.singleton_append]

/-- Dropping the objects of a script in the opposite order takes it back. -/
theorem dropAll_createAll (hc : c.WellFormed) (h : c.createAll script = some c') :
    c'.dropAll (undo script) = some c := by
  induction script generalizing c with
  | nil =>
    obtain rfl := Option.some.inj h
    rfl
  | cons e script ih =>
    rw [createAll_cons] at h
    obtain ⟨c₁, hcreate, hrest⟩ := Option.bind_eq_some_iff.mp h
    have hback := ih (hc.create hcreate) hrest
    rw [undo, List.reverse_cons, List.map_append, ← undo, dropAll_append, hback]
    show List.foldlM drop c₁ [(e.2.kind, e.1)] = some c
    rw [List.foldlM_cons, drop_create hc hcreate]
    rfl

/-- The names of the script are free. -/
def FreeAll (c script : Catalog τ) : Prop := ∀ e ∈ script, c.Free e.2.kind e.1

instance (c script : Catalog τ) : Decidable (c.FreeAll script) :=
  inferInstanceAs (Decidable (∀ e ∈ script, _))

/-- A script that runs on the empty catalog runs on another exactly when its names are
free there, and then adds its objects. -/
theorem createAll_iff (h : (createAll [] script).isSome) :
    c.createAll script = some c' ↔ c.FreeAll script ∧ c' = c ++ script := by
  -- on the rest of the script, behind the objects that are already there
  suffices hrest : ∀ done rest : Catalog τ, done.createAll rest = some (done ++ rest) →
      (createAll (c ++ done) rest = some c' ↔ c.FreeAll rest ∧ c' = c ++ done ++ rest) by
    obtain ⟨c₁, hscript⟩ := Option.isSome_iff_exists.mp h
    have hself := hrest [] script (hscript.trans (congrArg some (createAll_eq_append hscript)))
    rwa [List.append_nil] at hself
  intro done rest
  induction rest generalizing done with
  | nil =>
    intro _
    rw [List.append_nil]
    constructor
    · intro heq
      exact ⟨by simp [FreeAll], (Option.some.inj heq).symm⟩
    · rintro ⟨-, rfl⟩
      rfl
  | cons e rest ih =>
    intro hrun
    rw [createAll_cons] at hrun
    obtain ⟨c₁, hcreate, hrun⟩ := Option.bind_eq_some_iff.mp hrun
    obtain ⟨hfree, hsupports, rfl⟩ := create_eq_some hcreate
    have htail := ih (done ++ [e]) (by rw [hrun, List.append_assoc, List.singleton_append])
    rw [createAll_cons, FreeAll, List.forall_mem_cons, create]
    by_cases he : c.Free e.2.kind e.1
    · rw [if_pos ⟨(free_append_iff _ _ _ _).mpr ⟨he, hfree⟩, supports_append hsupports c⟩,
        Option.bind_some, List.append_assoc, htail, and_iff_right he]
      simp [FreeAll]
    · rw [if_neg (fun hcond => he ((free_append_iff _ _ _ _).mp hcond.1).1)]
      simp [he]

/-! ## Looking objects up -/

def labelsIn (name : String) (e : String × SchemaObject τ) : Option (List String) :=
  match e.2 with
  | .enumType labels => if e.1 = name then some labels else none
  | _ => none

def columnsIn (name : String) (e : String × SchemaObject τ) : Option (List (TableColumn τ)) :=
  match e.2 with
  | .table columns => if e.1 = name then some columns else none
  | _ => none

def enumLabels (c : Catalog τ) (name : String) : Option (List String) :=
  c.findSome? (labelsIn name)

def tableColumns (c : Catalog τ) (name : String) : Option (List (TableColumn τ)) :=
  c.findSome? (columnsIn name)

/-- An object whose name was free is found behind the others. -/
theorem findSome?_append_of_free {β : Type*} {find : String × SchemaObject τ → Option β}
    (hfind : ∀ e, (find e).isSome → e.1 = name ∧ e.2.kind = kind) (h : c.Free kind name)
    (c' : Catalog τ) : (c ++ c').findSome? find = c'.findSome? find := by
  have hnone : c.findSome? find = none := by
    apply List.findSome?_eq_none_iff.mpr
    intro e he
    by_contra hsome
    exact h.not_has (has_iff.mpr ⟨e, he, hfind e (Option.isSome_iff_ne_none.mpr hsome)⟩)
  rw [List.findSome?_append, hnone, Option.none_or]

theorem enumLabels_append (h : c.Free .enumType name) (c' : Catalog τ) :
    enumLabels (c ++ c') name = c'.enumLabels name := by
  apply findSome?_append_of_free _ h
  intro e he
  rw [labelsIn] at he
  split at he
  · rename_i labels hlabels
    split_ifs at he with hname
    · exact ⟨hname, by rw [hlabels]; rfl⟩
    · cases he
  · cases he

theorem tableColumns_append (h : c.Free .table name) (c' : Catalog τ) :
    tableColumns (c ++ c') name = c'.tableColumns name := by
  apply findSome?_append_of_free _ h
  intro e he
  rw [columnsIn] at he
  split at he
  · rename_i columns hcolumns
    split_ifs at he with hname
    · exact ⟨hname, by rw [hcolumns]; rfl⟩
    · cases he
  · cases he

end Catalog

end TelemetryApi
