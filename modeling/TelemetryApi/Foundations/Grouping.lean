import Mathlib.Algebra.BigOperators.Ring.List
import Mathlib.Algebra.Ring.Nat
import Mathlib.Data.List.Dedup

/-!
# Grouping rows by a key

`GROUP BY` splits the rows by the values of a key. The groups are a partition:
whatever is counted group by group adds up to the count over all rows.
-/

namespace TelemetryApi

variable {α κ : Type*} [DecidableEq κ] (key : α → κ)

/-- `SELECT DISTINCT key` -/
def distinct (rows : List α) : List κ := (rows.map key).dedup

/-- The rows of each group, with the value of the key they share. -/
def groups (rows : List α) : List (κ × List α) :=
  (distinct key rows).map fun k => (k, rows.filter fun a => key a = k)

theorem nodup_distinct (rows : List α) : (distinct key rows).Nodup := List.nodup_dedup _

theorem groups_keys (rows : List α) : (groups key rows).map (·.1) = distinct key rows := by
  rw [groups, List.map_map]
  exact List.map_id _

variable {key}

@[simp] theorem mem_distinct {rows : List α} {k : κ} :
    k ∈ distinct key rows ↔ ∃ a ∈ rows, key a = k := by
  simp [distinct]

theorem mem_groups {rows : List α} {g : κ × List α} :
    g ∈ groups key rows ↔ (∃ a ∈ rows, key a = g.1) ∧ g.2 = rows.filter fun a => key a = g.1 := by
  obtain ⟨k, members⟩ := g
  simp only [groups, List.mem_map, mem_distinct, Prod.mk.injEq]
  constructor
  · rintro ⟨k', hk', rfl, rfl⟩
    exact ⟨hk', rfl⟩
  · rintro ⟨hk, hmembers⟩
    exact ⟨k, hk, rfl, hmembers.symm⟩

/-- A group has at least one row. -/
theorem ne_nil_of_mem_groups {rows : List α} {g : κ × List α} (h : g ∈ groups key rows) :
    g.2 ≠ [] := by
  obtain ⟨⟨a, ha, hk⟩, hmembers⟩ := mem_groups.mp h
  have hmem : a ∈ g.2 := by
    rw [hmembers]
    exact List.mem_filter.mpr ⟨ha, by simpa using hk⟩
  exact List.ne_nil_of_mem hmem

/-- Exactly one of the keys is the key of a row. -/
theorem sum_indicator {keys : List κ} (hnodup : keys.Nodup) {k : κ} (hk : k ∈ keys) :
    (keys.map fun k' => if k = k' then 1 else 0).sum = 1 := by
  induction keys with
  | nil => cases hk
  | cons k' keys ih =>
    obtain ⟨hnotMem, hrest⟩ := List.nodup_cons.mp hnodup
    rw [List.map_cons, List.sum_cons]
    by_cases h : k = k'
    · subst h
      have hzero : (keys.map fun k' => if k = k' then 1 else 0).sum = 0 := by
        rw [List.sum_eq_zero]
        simp only [List.mem_map]
        rintro _ ⟨k', hk', rfl⟩
        rw [if_neg]
        rintro rfl
        exact hnotMem hk'
      rw [if_pos rfl, hzero]
    · rw [if_neg h, ih hrest ((List.mem_cons.mp hk).resolve_left h)]

/-- Counting key by key counts every row once. -/
theorem sum_countP_keys {keys : List κ} (hnodup : keys.Nodup) (p : α → Bool) {rows : List α}
    (hkeys : ∀ a ∈ rows, key a ∈ keys) :
    (keys.map fun k => (rows.filter fun a => key a = k).countP p).sum = rows.countP p := by
  induction rows with
  | nil => simp
  | cons a rows ih =>
    have hrest := ih fun b hb => hkeys b (List.mem_cons_of_mem _ hb)
    have hhead : ∀ k, ((a :: rows).filter fun a => key a = k).countP p =
        (rows.filter fun a => key a = k).countP p +
          (if p a then 1 else 0) * (if key a = k then 1 else 0) := by
      intro k
      by_cases hk : key a = k
      · simp [hk, List.countP_cons]
      · simp [hk]
    simp only [hhead]
    rw [List.sum_map_add, hrest, List.sum_map_mul_left,
      sum_indicator hnodup (hkeys a List.mem_cons_self), List.countP_cons, Nat.mul_one]

variable (key)

/-- The counts over the groups add up to the count over all rows. -/
theorem sum_countP_groups (p : α → Bool) (rows : List α) :
    ((groups key rows).map fun g => g.2.countP p).sum = rows.countP p := by
  rw [groups, List.map_map]
  exact sum_countP_keys (nodup_distinct key rows) p fun a ha => mem_distinct.mpr ⟨a, ha, rfl⟩

theorem sum_length_groups (rows : List α) :
    ((groups key rows).map fun g => g.2.length).sum = rows.length := by
  simpa using sum_countP_groups key (fun _ => true) rows

/-- The groups with a property of their key hold the rows with that property. -/
theorem sum_countP_groups_filter (q : κ → Bool) (p : α → Bool) (rows : List α) :
    (((groups key rows).filter fun g => q g.1).map fun g => g.2.countP p).sum =
      (rows.filter fun a => q (key a)).countP p := by
  have hkeys : ∀ a ∈ rows.filter fun a => q (key a), key a ∈ (distinct key rows).filter q := by
    intro a ha
    obtain ⟨hmem, hq⟩ := List.mem_filter.mp ha
    exact List.mem_filter.mpr ⟨mem_distinct.mpr ⟨a, hmem, rfl⟩, hq⟩
  rw [← sum_countP_keys ((nodup_distinct key rows).filter q) p hkeys, groups, List.filter_map,
    List.map_map]
  apply congrArg List.sum
  apply List.map_congr_left
  intro k hk
  have hq : q k := (List.mem_filter.mp hk).2
  simp only [Function.comp_apply, List.filter_filter]
  apply congrArg (List.countP p)
  apply List.filter_congr
  intro a _
  by_cases ha : key a = k
  · simp [ha, hq]
  · simp [ha]

end TelemetryApi
