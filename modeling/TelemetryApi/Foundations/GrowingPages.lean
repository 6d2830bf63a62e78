import TelemetryApi.Foundations.Paging

/-!
# Pages of a growing table

A reader asks for one page after the other while rows are added to the table. A
row never moves towards the front, so as long as the boundaries are clean a row
that is there at the beginning cannot slip past the reader.
-/

namespace TelemetryApi

variable {α κ : Type*} [LinearOrder κ] {key : α → κ} {rows rows' l : List α} {limit k : Nat} {a : α}

/-- How many rows stand before a row in every sorted result. -/
def rank (key : α → κ) (rows : List α) (a : α) : Nat := rows.countP fun b => key b < key a

theorem rank_mono (h : rows.Sublist rows') (a : α) : rank key rows a ≤ rank key rows' a :=
  h.countP_le

theorem countP_le_eq_rank_add (key : α → κ) (rows : List α) (a : α) :
    rows.countP (fun b => key b ≤ key a) =
      rank key rows a + rows.countP fun b => key b = key a := by
  induction rows with
  | nil => rfl
  | cons b rows ih =>
    rw [rank] at ih ⊢
    simp only [List.countP_cons, ih]
    obtain hb | hb | hb := lt_trichotomy (key b) (key a)
    · simp [hb, hb.le, hb.ne]
      omega
    · simp [hb]
      omega
    · simp [hb.not_ge, hb.not_gt, hb.ne']

theorem rank_lt_countP_le (h : a ∈ rows) :
    rank key rows a < rows.countP fun b => key b ≤ key a := by
  have hself : 0 < rows.countP fun b => key b = key a :=
    List.countP_pos_iff.mpr ⟨a, h, decide_eq_true rfl⟩
  rw [countP_le_eq_rank_add]
  omega

theorem rank_lt_length (h : a ∈ rows) : rank key rows a < rows.length :=
  (rank_lt_countP_le h).trans_le List.countP_le_length

/-- Rows that are added behind a row leave its rank. -/
theorem rank_eq_of_countP_le (h : rows.Sublist rows')
    (hbehind : rows'.countP (fun b => key b ≤ key a) ≤ rows.countP fun b => key b ≤ key a) :
    rank key rows' a = rank key rows a := by
  have hrank : rank key rows a ≤ rank key rows' a := rank_mono h a
  have hequal : rows.countP (fun b => key b = key a) ≤ rows'.countP fun b => key b = key a :=
    h.countP_le
  rw [countP_le_eq_rank_add, countP_le_eq_rank_add] at hbehind
  omega

/-- The rows in front of a clean cut are those whose rank is below it. -/
theorem IsResult.mem_take_iff (h : IsResult key rows l) {n : Nat}
    (hcut : 0 < n → n < rows.length → CleanCut key rows n) :
    a ∈ l.take n ↔ a ∈ rows ∧ rank key rows a < n := by
  obtain rfl | hpos := Nat.eq_zero_or_pos n
  · simp
  by_cases hn : n < rows.length
  · obtain ⟨t, rfl⟩ := hcut hpos hn
    rw [← h.1.countP_eq, take_countP_le h.2, List.mem_filter, h.1.mem_iff, h.1.countP_eq,
      decide_eq_true_eq]
    apply and_congr_right
    intro ha
    constructor
    · intro hat
      apply (rank_lt_countP_le ha).trans_le
      apply List.countP_mono_left
      intro b _ hb
      exact decide_eq_true ((of_decide_eq_true hb).trans hat)
    · intro hlt
      by_contra hat
      apply not_lt_of_ge _ hlt
      apply List.countP_mono_left
      intro b _ hb
      exact decide_eq_true ((of_decide_eq_true hb).trans_lt (lt_of_not_ge hat))
  · rw [List.take_of_length_le (by rw [h.1.length_eq]; omega), h.1.mem_iff]
    apply Iff.symm
    apply and_iff_left_of_imp
    intro ha
    exact (rank_lt_length ha).trans_le (Nat.le_of_not_lt hn)

omit [LinearOrder κ] in
theorem page_sublist (limit offset : Nat) (l : List α) : (page limit offset l).Sublist l :=
  (List.take_sublist _ _).trans (List.drop_sublist _ _)

theorem IsResult.nodup_page (h : IsResult key rows l) (hnodup : rows.Nodup) (limit offset : Nat) :
    (page limit offset l).Nodup :=
  (h.1.nodup_iff.mpr hnodup).sublist (page_sublist limit offset l)

/-- All boundaries between pages are clean. -/
def CleanPages (key : α → κ) (limit : Nat) (rows : List α) : Prop :=
  ∀ k, 0 < k → k * limit < rows.length → CleanCut key rows (k * limit)

/-- With clean boundaries the rank of a row decides which page has it. -/
theorem IsResult.mem_page_iff (h : IsResult key rows l) (hnodup : rows.Nodup)
    (hclean : CleanPages key limit rows) (hlimit : 0 < limit) :
    a ∈ page limit (k * limit) l ↔ a ∈ rows ∧ rank key rows a / limit = k := by
  have htake : ∀ n, a ∈ l.take (n * limit) ↔ a ∈ rows ∧ rank key rows a < n * limit := by
    intro n
    apply h.mem_take_iff
    intro hpos
    exact hclean n (Nat.pos_of_mul_pos_right hpos)
  have hsplit : l.take ((k + 1) * limit) = l.take (k * limit) ++ page limit (k * limit) l := by
    rw [page, Nat.succ_mul, List.take_add]
  have hdisjoint : a ∈ l.take (k * limit) → a ∉ page limit (k * limit) l := by
    have hsublist := (h.1.nodup_iff.mpr hnodup).sublist (List.take_sublist ((k + 1) * limit) l)
    rw [hsplit] at hsublist
    exact fun hbefore hpage => (List.nodup_append.mp hsublist).2.2 a hbefore a hpage rfl
  have hnext := htake (k + 1)
  rw [hsplit, List.mem_append, htake k] at hnext
  rw [htake k] at hdisjoint
  rw [Nat.div_eq_iff hlimit]
  constructor
  · intro hpage
    obtain ⟨ha, hlt⟩ := hnext.mp (.inr hpage)
    refine ⟨ha, ?_, ?_⟩
    · by_contra hlow
      exact hdisjoint ⟨ha, by omega⟩ hpage
    · rw [Nat.succ_mul] at hlt
      omega
  · rintro ⟨ha, hlow, hhigh⟩
    rw [Nat.succ_mul] at hnext
    obtain hbefore | hpage := hnext.mpr ⟨ha, by omega⟩
    · omega
    · exact hpage

/-- A reader from page `k` on: rows are added between the queries, each page is cut
out of the result of a query of its own, and a page that is not full is the last. -/
inductive PageRun (key : α → κ) (limit : Nat) : Nat → List α → List (List α) → List α → Prop
  | last {k : Nat} {rows l : List α} (hresult : IsResult key rows l)
      (hclean : CleanPages key limit rows)
      (hshort : (page limit (k * limit) l).length < limit) :
      PageRun key limit k rows [page limit (k * limit) l] rows
  | next {k : Nat} {rows l final : List α} {pages : List (List α)} (hresult : IsResult key rows l)
      (hclean : CleanPages key limit rows) (hrest : PageRun key limit (k + 1) rows pages final) :
      PageRun key limit k rows (page limit (k * limit) l :: pages) final
  | grow {k : Nat} {rows rows' final : List α} {pages : List (List α)} (hgrow : rows.Sublist rows')
      (hrest : PageRun key limit k rows' pages final) : PageRun key limit k rows pages final

namespace PageRun

variable {pages : List (List α)} {final : List α}

theorem sublist (h : PageRun key limit k rows pages final) : rows.Sublist final := by
  induction h with
  | last => exact .refl _
  | next _ _ _ ih => exact ih
  | grow hgrow _ ih => exact hgrow.trans ih

/-- Nothing is read that is not in the table at the end. -/
theorem subset (h : PageRun key limit k rows pages final) : ∀ a ∈ pages.flatten, a ∈ final := by
  induction h with
  | @last k rows l hresult =>
    intro a ha
    rw [List.flatten_singleton] at ha
    exact hresult.1.subset ((page_sublist _ _ l).subset ha)
  | @next k rows l final pages hresult _ hrest ih =>
    intro a ha
    rw [List.flatten_cons] at ha
    obtain ha | ha := List.mem_append.mp ha
    · exact hrest.sublist.subset (hresult.1.subset ((page_sublist _ _ l).subset ha))
    · exact ih a ha
  | grow _ _ ih => exact ih

/-- A row that the reader has not passed yet will be read. -/
theorem covers (h : PageRun key limit k rows pages final) (hnodup : final.Nodup)
    (hlimit : 0 < limit) (ha : a ∈ rows) (hahead : k * limit ≤ rank key rows a) :
    a ∈ pages.flatten := by
  induction h with
  | @last k rows l hresult hclean hshort =>
    rw [List.flatten_singleton, hresult.mem_page_iff hnodup hclean hlimit,
      Nat.div_eq_iff hlimit]
    refine ⟨ha, by omega, ?_⟩
    -- a page that is not full reaches the end of the table
    have hrank : rank key rows a < rows.length := rank_lt_length ha
    rw [page, List.length_take, List.length_drop, hresult.1.length_eq] at hshort
    omega
  | @next k rows l final pages hresult hclean hrest ih =>
    rw [List.flatten_cons, List.mem_append]
    by_cases hpage : rank key rows a < (k + 1) * limit
    · rw [hresult.mem_page_iff (hnodup.sublist hrest.sublist) hclean hlimit,
        Nat.div_eq_iff hlimit]
      rw [Nat.succ_mul] at hpage
      exact .inl ⟨ha, by omega, by omega⟩
    · exact .inr (ih hnodup ha (Nat.le_of_not_lt hpage))
  | @grow k rows rows' final pages hgrow _ ih =>
    exact ih hnodup (hgrow.subset ha) (hahead.trans (rank_mono hgrow a))

/-- No row has been added in front of `a` or beside it. -/
def Settled (key : α → κ) (rows final : List α) (a : α) : Prop :=
  final.countP (fun b => key b ≤ key a) ≤ rows.countP fun b => key b ≤ key a

theorem Settled.of_sublist (h : Settled key rows final a) (hrows : rows.Sublist rows')
    (hfinal : rows'.Sublist final) :
    rank key rows' a = rank key rows a ∧ Settled key rows' final a :=
  ⟨rank_eq_of_countP_le hrows (hfinal.countP_le.trans h), h.trans hrows.countP_le⟩

/-- A row that the reader has passed does not come back, unless it is pushed ahead. -/
theorem notMem_of_passed (h : PageRun key limit k rows pages final) (hnodup : final.Nodup)
    (hlimit : 0 < limit) (hstill : Settled key rows final a)
    (hpassed : rank key rows a < k * limit) : a ∉ pages.flatten := by
  induction h with
  | @last k rows l hresult hclean =>
    rw [List.flatten_singleton, hresult.mem_page_iff hnodup hclean hlimit,
      Nat.div_eq_iff hlimit]
    omega
  | @next k rows l final pages hresult hclean hrest ih =>
    rw [List.flatten_cons, List.mem_append, not_or,
      hresult.mem_page_iff (hnodup.sublist hrest.sublist) hclean hlimit, Nat.div_eq_iff hlimit]
    refine ⟨by omega, ih hnodup hstill ?_⟩
    rw [Nat.succ_mul]
    omega
  | @grow k rows rows' final pages hgrow hrest ih =>
    obtain ⟨hrank, hstill'⟩ := hstill.of_sublist hgrow hrest.sublist
    exact ih hnodup hstill' (hrank ▸ hpassed)

/-- A row that stays where it is comes exactly once. -/
theorem count_eq_one [DecidableEq α] (h : PageRun key limit k rows pages final)
    (hnodup : final.Nodup) (hlimit : 0 < limit) (ha : a ∈ rows)
    (hahead : k * limit ≤ rank key rows a) (hstill : Settled key rows final a) :
    pages.flatten.count a = 1 := by
  induction h with
  | @last k rows l hresult hclean hshort =>
    have hread := (PageRun.last hresult hclean hshort).covers hnodup hlimit ha hahead
    rw [List.flatten_singleton] at hread ⊢
    exact List.count_eq_one_of_mem (hresult.nodup_page hnodup limit _) hread
  | @next k rows l final pages hresult hclean hrest ih =>
    have hrows := hnodup.sublist hrest.sublist
    have hpage := hresult.mem_page_iff (k := k) (a := a) hrows hclean hlimit
    rw [List.flatten_cons, List.count_append]
    by_cases hlast : rank key rows a < (k + 1) * limit
    · have hnow : a ∈ page limit (k * limit) l := by
        rw [hpage, Nat.div_eq_iff hlimit]
        rw [Nat.succ_mul] at hlast
        exact ⟨ha, by omega, by omega⟩
      have hlater := hrest.notMem_of_passed hnodup hlimit hstill hlast
      rw [List.count_eq_zero_of_not_mem hlater,
        List.count_eq_one_of_mem (hresult.nodup_page hrows limit _) hnow]
    · have hnow : a ∉ page limit (k * limit) l := by
        rw [hpage, Nat.div_eq_iff hlimit]
        rw [Nat.succ_mul] at hlast
        omega
      rw [List.count_eq_zero_of_not_mem hnow, ih hnodup ha (Nat.le_of_not_lt hlast) hstill]
  | @grow k rows rows' final pages hgrow hrest ih =>
    obtain ⟨hrank, hstill'⟩ := hstill.of_sublist hgrow hrest.sublist
    exact ih hnodup (hgrow.subset ha) (hrank ▸ hahead) hstill'

end PageRun

end TelemetryApi
