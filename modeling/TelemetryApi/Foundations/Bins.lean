import TelemetryApi.Foundations.Grouping
import Mathlib.Data.Int.Basic
import Mathlib.Tactic.Linarith

/-!
# Bins of equal width

The integers fall into bins of a fixed width, one of which begins at zero. A bin whose
width is a multiple of another is a union of the smaller ones, so counts in wide bins
are sums of counts in narrow ones.
-/

namespace TelemetryApi

/-- Where the bin of `t` begins. -/
def binStart (width t : Int) : Int := width * (t / width)

theorem dvd_binStart (width t : Int) : width ∣ binStart width t := Int.dvd_mul_right _ _

theorem binStart_le {width : Int} (h : 0 < width) (t : Int) : binStart width t ≤ t := by
  rw [binStart, Int.mul_comm]
  exact Int.ediv_mul_le t h.ne'

theorem lt_binStart_add {width : Int} (h : 0 < width) (t : Int) : t < binStart width t + width := by
  have hlt := Int.lt_ediv_add_one_mul_self t h
  rwa [Int.add_mul, Int.one_mul, Int.mul_comm] at hlt

/-- Multiples less than a width apart are equal. -/
theorem eq_of_dvd_of_lt {width a b : Int} (ha : width ∣ a) (hb : width ∣ b) (hab : a < b + width)
    (hba : b < a + width) : a = b := by
  have hdvd : width ∣ a - b := Int.dvd_sub ha hb
  have hzero : a - b = 0 := Int.eq_zero_of_abs_lt_dvd hdvd (abs_lt.mpr ⟨by omega, by omega⟩)
  omega

theorem binStart_eq_iff {width : Int} (h : 0 < width) {t b : Int} :
    binStart width t = b ↔ width ∣ b ∧ b ≤ t ∧ t < b + width := by
  constructor
  · rintro rfl
    exact ⟨dvd_binStart width t, binStart_le h t, lt_binStart_add h t⟩
  · rintro ⟨hdvd, hle, hlt⟩
    have hle' := binStart_le h t
    have hlt' := lt_binStart_add h t
    exact eq_of_dvd_of_lt (dvd_binStart width t) hdvd (by omega) (by omega)

/-- A narrow bin that begins inside a wide one ends inside it. -/
theorem binStart_mem_wide_iff {width wide : Int} (h : 0 < width) (hwide : 0 < wide)
    (hdvd : width ∣ wide) {b : Int} (hb : wide ∣ b) (t : Int) :
    b ≤ binStart width t ∧ binStart width t < b + wide ↔ binStart wide t = b := by
  rw [binStart_eq_iff hwide]
  have hle := binStart_le h t
  have hlt := lt_binStart_add h t
  have hnarrow : width ∣ b := hdvd.trans hb
  constructor
  · rintro ⟨hbegin, hend⟩
    refine ⟨hb, by omega, ?_⟩
    -- the next narrow bin begins at the end of the wide one at the latest
    by_contra hafter
    have heq := eq_of_dvd_of_lt (dvd_binStart width t) (Int.dvd_add hnarrow hdvd) (by omega)
      (by omega)
    omega
  · rintro ⟨-, hbegin, hend⟩
    refine ⟨?_, by omega⟩
    by_contra hbefore
    have heq := eq_of_dvd_of_lt (dvd_binStart width t) hnarrow (by omega) (by omega)
    omega

variable {α : Type*} (time : α → Int)

/-- The rows of a wide bin are those of the narrow bins that begin inside it. -/
theorem sum_length_narrow {width wide : Int} (h : 0 < width) (hwide : 0 < wide)
    (hdvd : width ∣ wide) {b : Int} (hb : wide ∣ b) (rows : List α) :
    (((groups (fun a => binStart width (time a)) rows).filter fun g =>
        b ≤ g.1 ∧ g.1 < b + wide).map fun g => g.2.length).sum =
      (rows.filter fun a => binStart wide (time a) = b).length := by
  have hsum := sum_countP_groups_filter (fun a => binStart width (time a))
    (fun start => b ≤ start ∧ start < b + wide) (fun _ => true) rows
  simp only [List.countP_true, binStart_mem_wide_iff h hwide hdvd hb] at hsum
  exact hsum

end TelemetryApi
