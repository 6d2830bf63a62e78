import TelemetryApi.Domain
import TelemetryApi.Routes.NdjsonBatch

/-!
# What the table does with a batch

All accepted rows go into one `INSERT`, so one value that a column cannot hold
makes PostgreSQL refuse the whole batch.
-/

namespace TelemetryApi

variable (rt : Runtime)

instance (length : Nat) (s : String) : Decidable (TextFits length s) :=
  inferInstanceAs (Decidable (_ ∧ _))

instance (row : OrmRow) : Decidable (row.InDomain rt) :=
  decidable_of_iff _ (row.inDomain_iff rt).symm

/-- A healthy database, which refuses a statement for nothing but its values. -/
def Database.strict : Database where
  execute _ rows :=
    match rows.find? fun row => ¬ row.InDomain rt with
    | some row => some s!"value out of range in the row named {row.name}"
    | none => none
  commit _ _ := .done

theorem Database.strict_execute_eq_none {store rows : List OrmRow} :
    (Database.strict rt).execute store rows = none ↔ ∀ row ∈ rows, row.InDomain rt := by
  have hfind : (Database.strict rt).execute store rows = none ↔
      rows.find? (fun row => ¬ row.InDomain rt) = none := by
    simp only [Database.strict]
    split <;> simp_all
  rw [hfind, List.find?_eq_none]
  simp

/-- An accepted event has a row in the domain of every column exactly when its
object is storable, and the `INSERT` of a batch is taken exactly when every
accepted object of the batch is. -/
theorem accepted_inDomain_iff_storable :
    (∀ o row, acceptedRow rt o = some row → (row.InDomain rt ↔ Storable rt o)) ∧
      ∀ store objects, (Database.strict rt).execute store (acceptedRows rt objects) = none ↔
        ∀ o ∈ objects, (acceptedRow rt o).isSome → Storable rt o := by
  have hrow : ∀ o row, acceptedRow rt o = some row → (row.InDomain rt ↔ Storable rt o) :=
    fun o row h => acceptedRow_inDomain_iff rt h
  refine ⟨hrow, fun store objects => ?_⟩
  rw [Database.strict_execute_eq_none]
  constructor
  · intro h o ho hsome
    obtain ⟨row, hacc⟩ := Option.isSome_iff_exists.mp hsome
    exact (hrow o row hacc).mp (h row (List.mem_filterMap.mpr ⟨o, ho, hacc⟩))
  · intro h row hmem
    obtain ⟨o, ho, hacc⟩ := List.mem_filterMap.mp hmem
    exact (hrow o row hacc).mpr (h o ho (by rw [hacc]; rfl))

theorem accepted_inDomain_iff_storable_sample :
    ∃ row, acceptedRow sampleRuntime sampleEvent = some row ∧
      (row.InDomain sampleRuntime ↔ Storable sampleRuntime sampleEvent) := by
  have hsome : (acceptedRow sampleRuntime sampleEvent).isSome := by decide +kernel
  obtain ⟨row, hrow⟩ := Option.isSome_iff_exists.mp hsome
  exact ⟨row, hrow, (accepted_inDomain_iff_storable sampleRuntime).1 sampleEvent row hrow⟩

/-- An event whose vendor is a letter and U+0000. -/
def nulVendorEvent : JsonObject := ("vendor", .str (String.ofList ['v', nul])) :: sampleEvent

/-- An event whose `ts_ms` is one above the signed 64-bit integers. -/
def hugeTsMsEvent : JsonObject := ("ts_ms", .int (2 ^ 63)) :: sampleEvent

/-- The schema accepts both events, the table can hold neither, and each keeps
the other events of its batch out. -/
theorem accepted_not_inDomain :
    (∃ row, acceptedRow sampleRuntime nulVendorEvent = some row ∧
        ¬ row.InDomain sampleRuntime) ∧
      (∃ row, acceptedRow sampleRuntime hugeTsMsEvent = some row ∧
        ¬ row.InDomain sampleRuntime) ∧
      (Database.strict sampleRuntime).execute []
        (acceptedRows sampleRuntime [sampleEvent, nulVendorEvent]) ≠ none := by
  have hnul : (acceptedRow sampleRuntime nulVendorEvent).any
      fun row => decide (¬ row.InDomain sampleRuntime) := by decide +kernel
  have hhuge : (acceptedRow sampleRuntime hugeTsMsEvent).any
      fun row => decide (¬ row.InDomain sampleRuntime) := by decide +kernel
  refine ⟨?_, ?_, by decide +kernel⟩
  · simpa [Option.any_eq_true] using hnul
  · simpa [Option.any_eq_true] using hhuge

end TelemetryApi
