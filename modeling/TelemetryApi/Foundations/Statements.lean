import Mathlib.Logic.Relation

/-!
# Statements of one client among the commits of others

A client sends its queries one after the other, and every query sees the state that
is committed when it begins. Between any two queries, and before and behind them,
other clients may commit.
-/

namespace TelemetryApi

/-- The queries of a client that does not write, each depending on what the earlier
ones have returned. -/
inductive Script (σ α : Type*) where
  | done (answer : α)
  | query (k : σ → Script σ α)

namespace Script

variable {σ α : Type*} {commit : σ → σ → Prop}

/-- The answer where every query sees the same state. -/
def onState (s : σ) : Script σ α → α
  | done a => a
  | query k => (k s).onState s

/-- Another client commits, or the client runs its next query. -/
inductive Step (commit : σ → σ → Prop) : σ × Script σ α → σ × Script σ α → Prop
  | commit {s s' : σ} (h : commit s s') (p : Script σ α) : Step commit (s, p) (s', p)
  | query (s : σ) (k : σ → Script σ α) : Step commit (s, .query k) (s, k s)

/-- The answer of a client that begins in one state and ends in another: its queries
see states that lie between the two and follow each other. -/
def Answers (commit : σ → σ → Prop) : Script σ α → σ → α → σ → Prop
  | done a, s, answer, s' => Relation.ReflTransGen commit s s' ∧ answer = a
  | query k, s, answer, s' =>
    ∃ t, Relation.ReflTransGen commit s t ∧ (k t).Answers commit t answer s'

theorem Answers.head {p : Script σ α} {s t s' : σ} {a : α}
    (hst : Relation.ReflTransGen commit s t) (h : p.Answers commit t a s') :
    p.Answers commit s a s' := by
  cases p with
  | done b => exact ⟨hst.trans h.1, h.2⟩
  | query k =>
    obtain ⟨u, hu, hrest⟩ := h
    exact ⟨u, hst.trans hu, hrest⟩

/-- Without a commit among its queries the client sees one state. -/
theorem answers_onState (p : Script σ α) {s t s' : σ} (hst : Relation.ReflTransGen commit s t)
    (hts : Relation.ReflTransGen commit t s') : p.Answers commit s (p.onState t) s' := by
  induction p generalizing s with
  | done a => exact ⟨hst.trans hts, rfl⟩
  | query k ih => exact ⟨t, hst, ih t .refl⟩

/-- The answers of the interleaving are those over successive states. -/
theorem reaches_done_iff {p : Script σ α} {s s' : σ} {a : α} :
    Relation.ReflTransGen (Step commit) (s, p) (s', .done a) ↔ p.Answers commit s a s' := by
  have hcommits : ∀ (q : Script σ α) {t t' : σ}, Relation.ReflTransGen commit t t' →
      Relation.ReflTransGen (Step commit) (t, q) (t', q) := fun q _ _ h =>
    h.lift (fun t => (t, q)) fun _ _ hstep => .commit hstep q
  constructor
  · intro h
    generalize hx : (s, p) = x at h
    induction h using Relation.ReflTransGen.head_induction_on generalizing s p with
    | refl =>
      cases hx
      exact ⟨.refl, rfl⟩
    | head hstep _ ih =>
      subst hx
      cases hstep with
      | commit hcommit => exact (ih rfl).head (.single hcommit)
      | query k => exact ⟨s, .refl, ih rfl⟩
  · intro h
    induction p generalizing s with
    | done b =>
      obtain ⟨hlater, rfl⟩ := h
      exact hcommits _ hlater
    | query k ih =>
      obtain ⟨t, hlater, hrest⟩ := h
      exact ((hcommits _ hlater).tail (.query t k)).trans (ih t hrest)

end Script

end TelemetryApi
