import Mathlib.Data.List.Range

/-!
# Positions and indices

Records stand at increasing positions, and some of them are kept. Numbering the kept
ones anew gives a record its position exactly when every position before it is that
of a kept record.
-/

namespace TelemetryApi

/-- In an increasing list of numbers above `k` the index of an entry is at most its
distance from `k`, and they are equal where no number is missing. -/
theorem index_of_increasing {k : Nat} {ps : List Nat} (h : (k :: ps).Pairwise (· < ·)) {j p i : Nat}
    (hmem : (p, i) ∈ ps.zipIdx j) :
    i + k + 1 ≤ p + j ∧ (i + k + 1 = p + j ↔ ∀ m, k < m → m < p → m ∈ ps) := by
  induction ps generalizing k j with
  | nil => cases hmem
  | cons q ps ih =>
    obtain ⟨hk, hps⟩ := List.pairwise_cons.mp h
    have hkq : k < q := hk q List.mem_cons_self
    have hq := (List.pairwise_cons.mp hps).1
    rcases List.mem_cons.mp hmem with heq | hmem
    · obtain ⟨rfl, rfl⟩ := Prod.mk.inj heq
      refine ⟨by omega, fun hle m hkm hmp => by omega, fun hall => ?_⟩
      by_contra hne
      -- the number after `k` is missing
      rcases List.mem_cons.mp (hall (k + 1) (by omega) (by omega)) with heq | hmem
      · omega
      · have := hq _ hmem
        omega
    · obtain ⟨hle, hiff⟩ := ih hps hmem
      have hqp : q < p := hq p (List.fst_mem_of_mem_zipIdx hmem)
      refine ⟨by omega, fun heq m hkm hmp => ?_, fun hall => ?_⟩
      · by_cases hmq : m ≤ q
        · obtain rfl : m = q := by omega
          exact List.mem_cons_self
        · exact List.mem_cons_of_mem _ (hiff.mp (by omega) m (by omega) hmp)
      · have hnext : q = k + 1 := by
          rcases List.mem_cons.mp (hall (k + 1) (by omega) (by omega)) with heq | hmem
          · exact heq.symm
          · have := hq _ hmem
            omega
        have htail := hiff.mpr fun m hqm hmp => by
          rcases List.mem_cons.mp (hall m (by omega) hmp) with rfl | hmem
          · omega
          · exact hmem
        omega

variable {α : Type}

/-- The kept records with their positions. -/
def keptAt (records : List (Nat × Option α)) : List (Nat × α) :=
  records.filterMap fun r => r.2.map fun a => (r.1, a)

theorem mem_keptAt {records : List (Nat × Option α)} {n : Nat} {a : α} :
    (n, a) ∈ keptAt records ↔ (n, some a) ∈ records := by
  simp only [keptAt, List.mem_filterMap, Option.map_eq_some_iff, Prod.mk.injEq]
  constructor
  · rintro ⟨⟨n', o⟩, hmem, a', rfl, rfl, rfl⟩
    exact hmem
  · intro hmem
    exact ⟨(n, some a), hmem, a, rfl, rfl, rfl⟩

theorem keptAt_map_snd (records : List (Nat × Option α)) :
    (keptAt records).map (·.2) = records.filterMap (·.2) := by
  rw [keptAt, List.map_filterMap]
  apply List.filterMap_congr
  intro r _
  cases r.2 <;> rfl

theorem keptAt_increasing {records : List (Nat × Option α)}
    (h : (0 :: records.map (·.1)).Pairwise (· < ·)) :
    (0 :: (keptAt records).map (·.1)).Pairwise (· < ·) := by
  refine h.sublist (List.Sublist.cons_cons 0 ?_)
  induction records with
  | nil => exact List.Sublist.slnil
  | cons r records ih =>
    have hrest := ih (h.sublist (List.Sublist.cons_cons 0 (List.sublist_cons_self _ _)))
    cases hr : r.2 with
    | none => simpa [keptAt, hr] using hrest.cons r.1
    | some a => simpa [keptAt, hr] using hrest.cons_cons r.1

/-- A record has its own number in the list exactly when no number before it is missing. -/
theorem index_eq_iff_of_increasing {kept : List (Nat × α)}
    (hincr : (0 :: kept.map (·.1)).Pairwise (· < ·)) {e : (Nat × α) × Nat}
    (he : e ∈ kept.zipIdx 1) :
    e.2 = e.1.1 ↔ ∀ m, 0 < m → m < e.1.1 → ∃ b, (m, b) ∈ kept := by
  obtain ⟨⟨n, a⟩, i⟩ := e
  have hmem : (n, i) ∈ (kept.map (·.1)).zipIdx 1 := by
    rw [List.zipIdx_map]
    exact List.mem_map.mpr ⟨((n, a), i), he, rfl⟩
  have hindex := (index_of_increasing hincr hmem).2
  simp only [List.mem_map, Prod.exists, exists_and_right, exists_eq_right] at hindex
  rw [← hindex]
  simp

/-- The numbers that some of the kept records get are their positions exactly when
no record before one of them is left out. -/
theorem renumbered_eq_iff {records : List (Nat × Option α)}
    (h : (0 :: records.map (·.1)).Pairwise (· < ·)) (p : α → Bool) :
    (((records.filterMap (·.2)).zipIdx 1).filter fun e => p e.1).map (·.2) =
        ((keptAt records).filter fun r => p r.2).map (·.1) ↔
      ∀ n a, (n, some a) ∈ records → p a → ∀ m, 0 < m → m < n → ∃ b, (m, some b) ∈ records := by
  have hincr := keptAt_increasing h
  rw [← keptAt_map_snd]
  simp only [← mem_keptAt]
  generalize keptAt records = kept at hincr
  -- both sides read the same numbered records
  have hleft : (((kept.map (·.2)).zipIdx 1).filter fun e => p e.1).map (·.2) =
      ((kept.zipIdx 1).filter fun e => p e.1.2).map (·.2) := by
    rw [List.zipIdx_map, List.filter_map, List.map_map]
    rfl
  have hright : (kept.filter fun r => p r.2).map (·.1) =
      ((kept.zipIdx 1).filter fun e => p e.1.2).map (·.1.1) := by
    conv_lhs => rw [← List.zipIdx_map_fst 1 kept, List.filter_map, List.map_map]
    rfl
  rw [hleft, hright, List.map_inj_left]
  simp only [List.mem_filter, and_imp]
  constructor
  · intro hall n a hmem hp
    rw [← List.zipIdx_map_fst 1 kept] at hmem
    obtain ⟨e, he, heq⟩ := List.mem_map.mp hmem
    have hequal := hall e he (by rw [heq]; exact hp)
    have hgap := (index_eq_iff_of_increasing hincr he).mp hequal
    rw [heq] at hgap
    exact hgap
  · intro hall e he hp
    exact (index_eq_iff_of_increasing hincr he).mpr
      (hall e.1.1 e.1.2 (List.fst_mem_of_mem_zipIdx he) hp)

end TelemetryApi
