import Mathlib.Data.List.Induction
import TelemetryApi.Foundations.Runs

/-!
# Sessions with a state that only grows

A client talks to a state that others change between and during its exchanges. What an
exchange shows it about the state it may rely on later, as long as no step takes it back.
-/

namespace TelemetryApi

variable {σ ε κ : Type*} {step : σ → ε → σ → Prop} {s : σ} {run : List (ε × σ)}

namespace Along

/-- The exchange in the middle of a run begins in the state behind the first part. -/
theorem split (hrun : Along step s run) {before after : List ε} {e : ε}
    (hmap : run.map (·.1) = before ++ e :: after) :
    ∃ first s', first.map (·.1) = before ∧ Along step s first ∧ step (endState s first) e s' := by
  obtain ⟨first, rest, rfl, rfl, hrest⟩ := List.map_eq_append_iff.mp hmap
  obtain ⟨x, last, rfl, rfl, -⟩ := List.map_eq_cons_iff.mp hrest
  obtain ⟨hfirst, hstep, -⟩ := append_iff.mp hrun
  exact ⟨first, x.2, rfl, hfirst, hstep⟩

/-- What one exchange teaches, later ones obey, if it is known behind the exchange and no
step makes it unknown. -/
theorem pairwise (Known : σ → κ → Prop) (teaches obeys : ε → κ → Prop)
    (hteaches : ∀ s e s' k, step s e s' → teaches e k → Known s' k)
    (hkeeps : ∀ s e s' k, step s e s' → Known s k → Known s' k)
    (hobeys : ∀ s e s' k, step s e s' → Known s k → obeys e k) (hrun : Along step s run) :
    run.Pairwise fun x y => ∀ k, teaches x.1 k → obeys y.1 k := by
  induction run generalizing s with
  | nil => exact .nil
  | cons x rest ih =>
    obtain ⟨hx, hrest⟩ := hrun
    refine .cons ?_ (ih hrest)
    -- what is known behind the first exchange is known before each later one
    have hlater : ∀ (l : List (ε × σ)) (t : σ) (k : κ), Along step t l → Known t k →
        ∀ y ∈ l, obeys y.1 k := by
      intro l
      induction l with
      | nil => simp
      | cons z l ihl =>
        rintro t k ⟨hz, hl⟩ hk y hy
        obtain rfl | hy := List.mem_cons.mp hy
        · exact hobeys t _ _ k hz hk
        · exact ihl z.2 k hl (hkeeps t _ _ k hz hk) y hy
    intro y hy k hk
    exact hlater rest x.2 k hrest (hteaches s _ _ k hx hk) y hy

end Along

/-- The least value of a measure that a client can expect behind its exchanges: what one
of them has shown, or what it expected before and its own exchange has added. -/
inductive Expects (gain : ε → Nat) (shows : ε → Nat → Prop) : List ε → Nat → Prop
  | nothing : Expects gain shows [] 0
  | gained {es : List ε} {n : Nat} (e : ε) (h : Expects gain shows es n) :
      Expects gain shows (es ++ [e]) (n + gain e)
  | shown (es : List ε) {e : ε} {n : Nat} (h : shows e n) : Expects gain shows (es ++ [e]) n

namespace Expects

variable {gain : ε → Nat} {shows : ε → Nat → Prop}

theorem le_endState (measure : σ → Nat)
    (hgain : ∀ s e s', step s e s' → measure s + gain e ≤ measure s')
    (hshows : ∀ s e s' n, step s e s' → shows e n → n ≤ measure s') {es : List ε} {n : Nat}
    (h : Expects gain shows es n) (hrun : Along step s run) (hes : run.map (·.1) = es) :
    n ≤ measure (endState s run) := by
  induction h generalizing run with
  | nothing => exact Nat.zero_le _
  | @gained es n e h ih =>
    obtain ⟨first, last, rfl, hfirst, hlast⟩ := List.map_eq_append_iff.mp hes
    obtain ⟨x, hx, rfl⟩ := List.map_eq_singleton_iff.mp hlast
    obtain ⟨hbefore, hstep, -⟩ := Along.append_iff.mp (hx ▸ hrun)
    have hn := ih hbefore hfirst
    rw [hx, endState, List.foldl_append]
    show n + gain x.1 ≤ measure x.2
    exact Nat.le_trans (Nat.add_le_add_right hn _) (hgain _ _ _ hstep)
  | @shown es e n h =>
    obtain ⟨first, last, rfl, hfirst, hlast⟩ := List.map_eq_append_iff.mp hes
    obtain ⟨x, hx, rfl⟩ := List.map_eq_singleton_iff.mp hlast
    obtain ⟨-, hstep, -⟩ := Along.append_iff.mp (hx ▸ hrun)
    rw [hx, endState, List.foldl_append]
    exact hshows _ _ _ n hstep h

end Expects

end TelemetryApi
