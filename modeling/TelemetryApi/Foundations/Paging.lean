import Mathlib.Data.List.Sort
import Mathlib.Data.List.Nodup

/-!
# Sorted results read in pages

A query with `ORDER BY` fixes the order of rows with different keys and leaves
the order of equal ones to the plan, anew for each query. Pages of a fixed
length are queries of their own, so whether they fit together depends on where
their boundaries fall.
-/

namespace TelemetryApi

variable {α κ : Type*} [LinearOrder κ]

/-- The order in which the plan of one query delivers the rows of a table. -/
structure Scan (α : Type*) where
  order : List α → List α
  perm : ∀ rows, (order rows).Perm rows

def Scan.id : Scan α := ⟨fun rows => rows, fun _ => .refl _⟩

def Scan.reverse : Scan α := ⟨List.reverse, List.reverse_perm⟩

/-- `a` may stand before `b` in a result sorted by `key`. -/
def ByKey (key : α → κ) (a b : α) : Prop := key a ≤ key b

instance (key : α → κ) : DecidableRel (ByKey key) :=
  fun a b => inferInstanceAs (Decidable (key a ≤ key b))

instance (key : α → κ) : Std.Total (ByKey key) := ⟨fun a b => le_total (key a) (key b)⟩

instance (key : α → κ) : IsTrans α (ByKey key) := ⟨fun _ _ _ => le_trans⟩

/-- `ORDER BY key`; rows with equal keys come as the plan delivers them. -/
def orderBy (key : α → κ) (scan : Scan α) (rows : List α) : List α :=
  (scan.order rows).insertionSort (ByKey key)

/-- A result of `ORDER BY key` over the rows. -/
def IsResult (key : α → κ) (rows l : List α) : Prop := l.Perm rows ∧ l.Pairwise (ByKey key)

theorem isResult_orderBy (key : α → κ) (scan : Scan α) (rows : List α) :
    IsResult key rows (orderBy key scan rows) :=
  ⟨(List.perm_insertionSort _ _).trans (scan.perm rows), List.pairwise_insertionSort _ _⟩

/-- Every sorted arrangement of the rows is the result under some plan. -/
theorem IsResult.exists_scan {key : α → κ} {rows l : List α} (h : IsResult key rows l) :
    ∃ scan, orderBy key scan rows = l := by
  classical
  refine ⟨⟨fun rows' => if l.Perm rows' then l else rows', fun rows' => ?_⟩, ?_⟩
  · split_ifs with hperm
    · exact hperm
    · exact .refl _
  · simp only [orderBy, if_pos h.1]
    exact h.2.insertionSort_eq

/-- `LIMIT limit OFFSET offset` -/
def page (limit offset : Nat) (l : List α) : List α := (l.drop offset).take limit

/-- The first `n` pages, each cut out of the result of a query of its own. -/
def readPages (limit : Nat) (result : Nat → List α) (n : Nat) : List α :=
  (List.range n).flatMap fun k => page limit (k * limit) (result k)

theorem readPages_succ (limit : Nat) (result : Nat → List α) (n : Nat) :
    readPages limit result (n + 1) =
      readPages limit result n ++ page limit (n * limit) (result n) := by
  simp [readPages, List.range_succ]

omit [LinearOrder κ] in
theorem mem_page {limit offset i : Nat} {l : List α} {a : α} (h : l[i]? = some a)
    (hoffset : offset ≤ i) (hlt : i < offset + limit) : a ∈ page limit offset l := by
  have hget : (page limit offset l)[i - offset]? = some a := by
    rw [page, List.getElem?_take, if_pos (by omega), List.getElem?_drop,
      Nat.add_sub_cancel' hoffset, h]
  exact List.mem_of_getElem? hget

/-- In a sorted list the rows up to a key are a prefix. -/
theorem take_countP_le {key : α → κ} {l : List α} (h : l.Pairwise (ByKey key)) (t : κ) :
    l.take (l.countP fun a => key a ≤ t) = l.filter fun a => key a ≤ t := by
  induction l with
  | nil => rfl
  | cons a l ih =>
    obtain ⟨hhead, htail⟩ := List.pairwise_cons.mp h
    by_cases ha : key a ≤ t
    · rw [List.countP_cons_of_pos (by simpa using ha), List.take_succ_cons,
        List.filter_cons_of_pos (by simpa using ha), ih htail]
    · have hrest : ∀ b ∈ a :: l, ¬ key b ≤ t := by
        intro b hb hbt
        rcases List.mem_cons.mp hb with rfl | hb
        · exact ha hbt
        · exact ha ((hhead b hb).trans hbt)
      have hcount : (a :: l).countP (fun a => key a ≤ t) = 0 := by
        rw [List.countP_eq_zero]
        simpa using hrest
      have hfilter : (a :: l).filter (fun a => key a ≤ t) = [] := by
        rw [List.filter_eq_nil_iff]
        simpa using hrest
      rw [hcount, hfilter, List.take_zero]

/-- Some key separates the first `n` rows from the others. -/
def CleanCut (key : α → κ) (rows : List α) (n : Nat) : Prop :=
  ∃ t, rows.countP (fun a => key a ≤ t) = n

/-- The rows below the key at a position of a sorted list stand before it. -/
theorem countP_lt_getElem_le {key : α → κ} {l : List α} (h : l.Pairwise (ByKey key)) {i : Nat}
    (hi : i < l.length) : l.countP (fun a => key a < key l[i]) ≤ i := by
  have hdrop : (l.drop i).countP (fun a => key a < key l[i]) = 0 := by
    have htail := h.sublist (List.drop_sublist i l)
    rw [List.drop_eq_getElem_cons hi, List.pairwise_cons] at htail
    rw [List.drop_eq_getElem_cons hi, List.countP_eq_zero]
    intro a ha hlt
    rcases List.mem_cons.mp ha with rfl | ha
    · exact lt_irrefl _ (of_decide_eq_true hlt)
    · exact absurd (of_decide_eq_true hlt) (not_lt_of_ge (htail.1 a ha))
  calc l.countP (fun a => key a < key l[i])
      = (l.take i).countP (fun a => key a < key l[i]) +
          (l.drop i).countP (fun a => key a < key l[i]) := by
        rw [← List.countP_append, List.take_append_drop]
    _ ≤ (l.take i).length := by
        rw [hdrop]
        exact List.countP_le_length
    _ ≤ i := List.length_take_le i l

/-- The rows up to a position of a sorted list have at most the key there. -/
theorem lt_countP_le_getElem {key : α → κ} {l : List α} (h : l.Pairwise (ByKey key)) {i : Nat}
    (hi : i < l.length) : i < l.countP (fun a => key a ≤ key l[i]) := by
  have htake : (l.take (i + 1)).countP (fun a => key a ≤ key l[i]) = (l.take (i + 1)).length := by
    rw [List.countP_eq_length]
    intro a ha
    rw [List.take_succ_eq_append_getElem hi] at ha
    rcases List.mem_append.mp ha with ha | ha
    · obtain ⟨j, hj, rfl⟩ := List.mem_take_iff_getElem.mp ha
      exact decide_eq_true (List.pairwise_iff_getElem.mp h j i _ hi (by omega))
    · rw [List.mem_singleton.mp ha]
      exact decide_eq_true le_rfl
  have hle := (List.take_sublist (i + 1) l).countP_le (p := fun a => key a ≤ key l[i])
  rw [htake, List.length_take] at hle
  omega

/-- A cut is clean when it falls strictly inside no group of equal keys. -/
theorem cleanCut_iff {key : α → κ} {rows : List α} {n : Nat} (hpos : 0 < n)
    (hle : n ≤ rows.length) :
    CleanCut key rows n ↔
      ∀ t, rows.countP (fun a => key a < t) < n → rows.countP (fun a => key a ≤ t) ≤ n := by
  constructor
  · rintro ⟨s, rfl⟩ t hlt
    by_contra hgt
    have hst : s < t := by
      by_contra hts
      refine hgt (List.countP_mono_left fun a _ ha => ?_)
      exact decide_eq_true ((of_decide_eq_true ha).trans (le_of_not_gt hts))
    refine absurd hlt (not_lt_of_ge (List.countP_mono_left fun a _ ha => ?_))
    exact decide_eq_true ((of_decide_eq_true ha).trans_lt hst)
  · intro hinside
    obtain ⟨hperm, hsorted⟩ := isResult_orderBy key Scan.id rows
    generalize orderBy key Scan.id rows = l at hperm hsorted
    have hlen : n - 1 < l.length := by
      rw [hperm.length_eq]
      omega
    -- the key of the last row before the cut
    refine ⟨key l[n - 1], le_antisymm (hinside _ ?_) ?_⟩
    · have hbelow := countP_lt_getElem_le hsorted hlen
      rw [hperm.countP_eq] at hbelow
      omega
    · have hupto := lt_countP_le_getElem hsorted hlen
      rw [hperm.countP_eq] at hupto
      omega

/-- Different keys leave only clean cuts. -/
theorem cleanCut_of_nodup {key : α → κ} {rows : List α} (h : (rows.map key).Nodup) {n : Nat}
    (hpos : 0 < n) (hle : n ≤ rows.length) : CleanCut key rows n := by
  rw [cleanCut_iff hpos hle]
  intro t hlt
  have hsplit : rows.countP (fun a => key a ≤ t) =
      rows.countP (fun a => key a < t) + (rows.map key).count t := by
    clear h hle hlt
    induction rows with
    | nil => rfl
    | cons a rows ih =>
      simp only [List.map_cons, List.countP_cons, List.count_cons, ih]
      rcases lt_trichotomy (key a) t with ha | ha | ha
      · simp [ha, ha.le, ha.ne]
        omega
      · simp [ha]
        omega
      · simp [ha.not_ge, ha.not_gt, ha.ne']
  have hone := List.nodup_iff_count_le_one.mp h t
  omega

/-- Up to a clean cut all results agree on which rows come first. -/
theorem IsResult.take_perm {key : α → κ} {rows l l' : List α} (h : IsResult key rows l)
    (h' : IsResult key rows l') {n : Nat} (hcut : n < rows.length → CleanCut key rows n) :
    (l.take n).Perm (l'.take n) := by
  by_cases hn : n < rows.length
  · obtain ⟨t, ht⟩ := hcut hn
    have htake : ∀ {l}, IsResult key rows l → l.take n = l.filter fun a => key a ≤ t := by
      intro l hl
      rw [← take_countP_le hl.2, hl.1.countP_eq, ht]
    rw [htake h, htake h']
    exact (h.1.trans h'.1.symm).filter _
  · rw [List.take_of_length_le (by rw [h.1.length_eq]; omega),
      List.take_of_length_le (by rw [h'.1.length_eq]; omega)]
    exact h.1.trans h'.1.symm

/-- Pages with clean boundaries fit together, whatever the plans were. -/
theorem readPages_perm_take {key : α → κ} {rows : List α} {limit : Nat}
    (hcut : ∀ k, 0 < k → k * limit < rows.length → CleanCut key rows (k * limit))
    {result : Nat → List α} (hresult : ∀ k, IsResult key rows (result k)) (n : Nat) :
    ∀ {l}, IsResult key rows l → (readPages limit result n).Perm (l.take (n * limit)) := by
  induction n with
  | zero =>
    intro l _
    simp [readPages]
  | succ n ih =>
    intro l hl
    have hpages := (ih (hresult n)).append_right (page limit (n * limit) (result n))
    have htake : (result n).take (n * limit) ++ page limit (n * limit) (result n) =
        (result n).take ((n + 1) * limit) := by
      rw [page, Nat.succ_mul, List.take_add]
    rw [htake] at hpages
    rw [readPages_succ]
    exact hpages.trans ((hresult n).take_perm hl fun hlt => hcut (n + 1) (Nat.succ_pos n) hlt)

/-- Around a boundary that is no clean cut the keys are equal: with different keys the
row in front of it would separate the rows. -/
theorem IsResult.key_le_of_not_cleanCut {key : α → κ} {rows : List α} {pre post : List α} {a b : α}
    (h : IsResult key rows (pre ++ a :: b :: post))
    (hcut : ¬ CleanCut key rows (pre.length + 1)) : key b ≤ key a := by
  obtain ⟨-, hrest, hcross⟩ := List.pairwise_append.mp h.2
  obtain ⟨hb, -⟩ := List.pairwise_cons.mp (List.pairwise_cons.mp hrest).2
  by_contra hlt
  refine hcut ⟨key a, ?_⟩
  have hfirst : (pre ++ [a]).countP (fun c => key c ≤ key a) = pre.length + 1 := by
    rw [List.countP_eq_length.mpr, List.length_append, List.length_singleton]
    intro c hc
    obtain hc | hc := List.mem_append.mp hc
    · exact decide_eq_true (hcross c hc a List.mem_cons_self)
    · rw [List.mem_singleton.mp hc]
      exact decide_eq_true le_rfl
  have hlast : (b :: post).countP (fun c => key c ≤ key a) = 0 := by
    rw [List.countP_eq_zero]
    intro c hc hle
    refine hlt (le_trans ?_ (of_decide_eq_true hle))
    obtain rfl | hc := List.mem_cons.mp hc
    · exact le_rfl
    · exact hb c hc
  rw [← h.1.countP_eq, List.append_cons, List.countP_append, hfirst, hlast]

/-- Neighbours with equal keys can change places. -/
theorem IsResult.swap {key : α → κ} {rows : List α} {pre post : List α} {a b : α}
    (h : IsResult key rows (pre ++ a :: b :: post)) (hkey : key b ≤ key a) :
    IsResult key rows (pre ++ b :: a :: post) := by
  obtain ⟨hpre, hrest, hcross⟩ := List.pairwise_append.mp h.2
  obtain ⟨ha, hrest'⟩ := List.pairwise_cons.mp hrest
  obtain ⟨hb, hpost⟩ := List.pairwise_cons.mp hrest'
  have hswapped : (b :: a :: post).Pairwise fun c d => key c ≤ key d := by
    refine List.pairwise_cons.mpr ⟨?_, List.pairwise_cons.mpr ⟨?_, hpost⟩⟩
    · intro c hc
      obtain rfl | hc := List.mem_cons.mp hc
      · exact hkey
      · exact hb c hc
    · exact fun c hc => ha c (List.mem_cons_of_mem _ hc)
  constructor
  · exact ((List.Perm.swap a b post).append_left pre).trans h.1
  · refine List.pairwise_append.mpr ⟨hpre, hswapped, ?_⟩
    intro c hc d hd
    exact hcross c hc d (by simpa [or_left_comm] using hd)

/-- At a boundary inside a group of equal keys, two plans can disagree on which
row of the group is the last before it. -/
theorem exists_swapped {key : α → κ} {rows : List α} {n : Nat} (hpos : 0 < n)
    (hlt : n < rows.length) (hcut : ¬ CleanCut key rows n) :
    ∃ l l' a, IsResult key rows l ∧ IsResult key rows l' ∧ l[n - 1]? = some a ∧
      l'[n]? = some a := by
  have hsorted := isResult_orderBy key Scan.id rows
  generalize orderBy key Scan.id rows = l at hsorted
  have hlen : l.length = rows.length := hsorted.1.length_eq
  obtain ⟨pre, rest, hsplit, hpre⟩ : ∃ pre rest, l = pre ++ rest ∧ pre.length = n - 1 :=
    ⟨l.take (n - 1), l.drop (n - 1), (List.take_append_drop _ _).symm,
      by rw [List.length_take]; omega⟩
  obtain ⟨a, b, post, rfl⟩ : ∃ a b post, rest = a :: b :: post := by
    rw [hsplit, List.length_append] at hlen
    match rest, hlen with
    | [], hlen => simp at hlen; omega
    | [_], hlen => simp at hlen; omega
    | a :: b :: post, _ => exact ⟨a, b, post, rfl⟩
  subst hsplit
  have hboundary : pre.length + 1 = n := by omega
  have hkey := hsorted.key_le_of_not_cleanCut (hboundary ▸ hcut)
  refine ⟨pre ++ a :: b :: post, pre ++ b :: a :: post, a, hsorted, hsorted.swap hkey, ?_, ?_⟩
  · rw [List.getElem?_append_right (by omega), hpre, Nat.sub_self]
    rfl
  · rw [List.getElem?_append_right (by omega), hpre, show n - (n - 1) = 1 by omega]
    rfl

/-- Pages cut out of queries of their own give every row exactly once, under all
plans, exactly when no boundary falls inside a group of rows with equal keys. -/
theorem readPages_perm_iff {key : α → κ} {rows : List α} (hnodup : rows.Nodup) {limit n : Nat}
    (hlimit : 0 < limit) (hall : rows.length ≤ n * limit) :
    (∀ result : Nat → List α, (∀ k, IsResult key rows (result k)) →
        (readPages limit result n).Perm rows) ↔
      ∀ k, 0 < k → k * limit < rows.length → CleanCut key rows (k * limit) := by
  constructor
  · intro hperm k hk hlt
    by_contra hcut
    -- the plans change at the boundary, from one of two results to the other
    obtain ⟨l, l', a, hl, hl', hlast, hfirst⟩ :=
      exists_swapped (Nat.mul_pos hk hlimit) hlt hcut
    have hdup := hperm (fun i => if i < k then l else l') fun i => by
      split_ifs
      · exact hl
      · exact hl'
    have hpages := (List.nodup_flatMap.mp (hdup.nodup_iff.mpr hnodup)).2
    have hkn : k < n := Nat.lt_of_mul_lt_mul_right (hlt.trans_le hall)
    -- the row stands at the end of one page and at the beginning of the next
    have hbefore : a ∈ page limit ((k - 1) * limit) (if k - 1 < k then l else l') := by
      rw [if_pos (by omega)]
      have hmul : (k - 1) * limit + limit = k * limit := by
        rw [← Nat.succ_mul, Nat.succ_eq_add_one, Nat.sub_add_cancel hk]
      exact mem_page hlast (by omega) (by omega)
    have hafter : a ∈ page limit (k * limit) (if k < k then l else l') := by
      rw [if_neg (lt_irrefl k)]
      exact mem_page hfirst le_rfl (by omega)
    have hdisjoint := List.pairwise_iff_getElem.mp hpages (k - 1) k (by simp; omega)
      (by simpa using hkn) (by omega)
    simp only [List.getElem_range, Function.onFun] at hdisjoint
    exact hdisjoint hbefore hafter
  · intro hcut result hresult
    have hpages := readPages_perm_take hcut hresult n (hresult 0)
    rw [List.take_of_length_le (by rw [(hresult 0).1.length_eq]; exact hall)] at hpages
    exact hpages.trans (hresult 0).1

end TelemetryApi
