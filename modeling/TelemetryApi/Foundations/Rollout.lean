import Mathlib.Data.List.Basic
import Mathlib.Logic.Relation

/-!
# Rolling out accepted credentials

An operator writes down which credentials are accepted. Deployments carry the list to a
stored file and from there to the servers, each in steps of its own and any number of them
at once; the holders of credentials take over the issued one when they like. A credential
in use is in every copy of the list as long as none is dropped that is in use and none is
issued that some copy lacks.
-/

namespace TelemetryApi

variable {κ : Type*}

/-- How far a deployment has come. -/
inductive Deploy (κ : Type*) where
  /-- It has read the list of the operator. -/
  | begun (wanted : List κ)
  /-- The file is written, or it is not for this deployment to write. -/
  | stored
  /-- It has read the file and restarts servers with the list. -/
  | applying (accepted : List κ)

structure Rollout (κ : Type*) where
  wanted : List κ
  stored : List κ
  deploys : List (Deploy κ)
  servers : List (List κ)
  issued : κ
  held : List κ

def Deploy.list : Deploy κ → Option (List κ)
  | .begun l | .applying l => some l
  | .stored => none

namespace Rollout

/-- The lists that are or may come to be in force. -/
def copies (w : Rollout κ) : List (List κ) :=
  w.wanted :: w.stored :: (w.deploys.filterMap Deploy.list ++ w.servers)

/-- The credentials that holders have or may take over. -/
def inUse (w : Rollout κ) : List κ := w.issued :: w.held

inductive Step (w : Rollout κ) : Rollout κ → Prop
  | edit (l : List κ) (h : ∀ k ∈ w.inUse, k ∈ l) : Step w { w with wanted := l }
  | begin : Step w { w with deploys := w.deploys ++ [.begun w.wanted] }
  /-- A deployment that takes the file as it is. -/
  | reapply : Step w { w with deploys := w.deploys ++ [.stored] }
  | store {i : Nat} {l : List κ} (h : w.deploys[i]? = some (.begun l)) :
      Step w { w with stored := l, deploys := w.deploys.set i .stored }
  | read {i : Nat} (h : w.deploys[i]? = some .stored) :
      Step w { w with deploys := w.deploys.set i (.applying w.stored) }
  | restart {i : Nat} {l : List κ} (j : Nat) (h : w.deploys[i]? = some (.applying l)) :
      Step w { w with servers := w.servers.set j l }
  | add {i : Nat} {l : List κ} (h : w.deploys[i]? = some (.applying l)) :
      Step w { w with servers := w.servers ++ [l] }
  | remove (j : Nat) : Step w { w with servers := w.servers.eraseIdx j }
  /-- A deployment ends or fails, wherever it is. -/
  | leave (i : Nat) : Step w { w with deploys := w.deploys.eraseIdx i }
  | issue (k : κ) (h : ∀ l ∈ w.copies, k ∈ l) : Step w { w with issued := k }
  | update (j : Nat) : Step w { w with held := w.held.set j w.issued }
  | install : Step w { w with held := w.held ++ [w.issued] }

abbrev Reaches : Rollout κ → Rollout κ → Prop := Relation.ReflTransGen Step

/-- Every copy of the list has every credential in use. -/
def Covered (w : Rollout κ) : Prop := ∀ l ∈ w.copies, ∀ k ∈ w.inUse, k ∈ l

variable {w w' : Rollout κ}

theorem mem_copies {l : List κ} :
    l ∈ w.copies ↔ l = w.wanted ∨ l = w.stored ∨ (∃ d ∈ w.deploys, d.list = some l) ∨
      l ∈ w.servers := by
  simp [copies]

/-! ## No credential in use is refused -/

theorem Covered.of_subset (h : w.Covered) (hcopies : w'.copies ⊆ w.copies)
    (hinUse : w'.inUse ⊆ w.inUse) : w'.Covered :=
  fun l hl k hk => h l (hcopies hl) k (hinUse hk)

theorem wanted_mem_copies : w.wanted ∈ w.copies := mem_copies.mpr (.inl rfl)

theorem stored_mem_copies : w.stored ∈ w.copies := mem_copies.mpr (.inr (.inl rfl))

theorem list_mem_copies {d : Deploy κ} (h : d ∈ w.deploys) {l : List κ} (hlist : l ∈ d.list) :
    l ∈ w.copies :=
  mem_copies.mpr (.inr (.inr (.inl ⟨d, h, hlist⟩)))

theorem server_mem_copies {l : List κ} (h : l ∈ w.servers) : l ∈ w.copies :=
  mem_copies.mpr (.inr (.inr (.inr h)))

/-- A step that only passes on lists makes no new copy. -/
theorem copies_subset (hwanted : w'.wanted ∈ w.copies) (hstored : w'.stored ∈ w.copies)
    (hdeploys : ∀ d ∈ w'.deploys, ∀ l ∈ d.list, l ∈ w.copies)
    (hservers : ∀ l ∈ w'.servers, l ∈ w.copies) : w'.copies ⊆ w.copies := by
  intro l hl
  obtain rfl | rfl | ⟨d, hd, hlist⟩ | hserver := mem_copies.mp hl
  · exact hwanted
  · exact hstored
  · exact hdeploys d hd l hlist
  · exact hservers l hserver

theorem copies_deploys_subset {stored : List κ} {deploys : List (Deploy κ)}
    (hstored : stored ∈ w.copies) (h : ∀ d ∈ deploys, ∀ l ∈ d.list, l ∈ w.copies) :
    ({ w with stored := stored, deploys := deploys } : Rollout κ).copies ⊆ w.copies :=
  copies_subset wanted_mem_copies hstored h fun _ hl => server_mem_copies (w := w) hl

theorem copies_set_subset {i : Nat} {d : Deploy κ} {stored : List κ}
    (hstored : stored ∈ w.copies) (hd : ∀ l ∈ d.list, l ∈ w.copies) :
    ({ w with stored := stored, deploys := w.deploys.set i d } : Rollout κ).copies ⊆ w.copies := by
  apply copies_deploys_subset hstored
  intro d' hd'
  obtain hold | rfl := List.mem_or_eq_of_mem_set hd'
  · exact fun l => list_mem_copies hold
  · exact hd

theorem copies_append_subset {d : Deploy κ} (hd : ∀ l ∈ d.list, l ∈ w.copies) :
    ({ w with deploys := w.deploys ++ [d] } : Rollout κ).copies ⊆ w.copies := by
  apply copies_deploys_subset stored_mem_copies
  intro d' hd'
  obtain hold | hnew := List.mem_append.mp hd'
  · exact fun l => list_mem_copies hold
  · rw [List.mem_singleton.mp hnew]
    exact hd

theorem copies_servers_subset {servers : List (List κ)} (h : ∀ l ∈ servers, l ∈ w.copies) :
    ({ w with servers := servers } : Rollout κ).copies ⊆ w.copies :=
  copies_subset wanted_mem_copies stored_mem_copies
    (fun _ hd _ hlist => list_mem_copies (w := w) hd hlist) h

theorem Covered.step (h : w.Covered) (hstep : Step w w') : w'.Covered := by
  cases hstep with
  | edit l hl =>
    intro l' hl' k hk
    obtain rfl | hrest := List.mem_cons.mp hl'
    · exact hl k hk
    · exact h l' (List.mem_cons_of_mem _ hrest) k hk
  | begin =>
    refine h.of_subset (copies_append_subset ?_) (List.Subset.refl _)
    rintro l hl
    obtain rfl : w.wanted = l := Option.some.inj hl
    exact wanted_mem_copies
  | reapply =>
    refine h.of_subset (copies_append_subset ?_) (List.Subset.refl _)
    rintro l hl
    cases hl
  | store hdeploy =>
    have hstored := list_mem_copies (List.mem_of_getElem? hdeploy) rfl
    refine h.of_subset (copies_set_subset hstored ?_) (List.Subset.refl _)
    rintro l hl
    cases hl
  | read hdeploy =>
    refine h.of_subset (copies_set_subset stored_mem_copies ?_) (List.Subset.refl _)
    rintro l hl
    obtain rfl : w.stored = l := Option.some.inj hl
    exact stored_mem_copies
  | restart j hdeploy =>
    refine h.of_subset (copies_servers_subset ?_) (List.Subset.refl _)
    intro l hl
    obtain hold | rfl := List.mem_or_eq_of_mem_set hl
    · exact server_mem_copies hold
    · exact list_mem_copies (List.mem_of_getElem? hdeploy) rfl
  | add hdeploy =>
    refine h.of_subset (copies_servers_subset ?_) (List.Subset.refl _)
    intro l hl
    obtain hold | hnew := List.mem_append.mp hl
    · exact server_mem_copies hold
    · rw [List.mem_singleton.mp hnew]
      exact list_mem_copies (List.mem_of_getElem? hdeploy) rfl
  | remove j =>
    refine h.of_subset (copies_servers_subset ?_) (List.Subset.refl _)
    intro l hl
    exact server_mem_copies (List.mem_of_mem_eraseIdx hl)
  | leave i =>
    refine h.of_subset (copies_deploys_subset stored_mem_copies ?_) (List.Subset.refl _)
    intro d hd l
    exact list_mem_copies (List.mem_of_mem_eraseIdx hd)
  | issue k hk =>
    intro l hl k' hk'
    obtain rfl | hheld := List.mem_cons.mp hk'
    · exact hk l hl
    · exact h l hl k' (List.mem_cons_of_mem _ hheld)
  | update j =>
    refine h.of_subset (List.Subset.refl _) ?_
    intro k hk
    obtain rfl | hheld := List.mem_cons.mp hk
    · exact List.mem_cons_self
    · obtain hold | rfl := List.mem_or_eq_of_mem_set hheld
      · exact List.mem_cons_of_mem _ hold
      · exact List.mem_cons_self
  | install =>
    refine h.of_subset (List.Subset.refl _) ?_
    intro k hk
    obtain rfl | hheld := List.mem_cons.mp hk
    · exact List.mem_cons_self
    · obtain hold | hnew := List.mem_append.mp hheld
      · exact List.mem_cons_of_mem _ hold
      · rw [List.mem_singleton.mp hnew]
        exact List.mem_cons_self

theorem Covered.reaches (h : w.Covered) (hreach : Reaches w w') : w'.Covered := by
  induction hreach with
  | refl => exact h
  | tail _ hstep ih => exact ih.step hstep

/-! ## A deployment and a rotation on their own -/

/-- Steps that each overwrite one place of a list overwrite them all. -/
theorem reaches_overwritten {σ α : Type*} {step : σ → σ → Prop} (state : List α → σ) (a : α)
    (h : ∀ l j, step (state l) (state (l.set j a))) (front back : List α) :
    Relation.ReflTransGen step (state (front ++ back))
      (state (front ++ List.replicate back.length a)) := by
  induction back generalizing front with
  | nil => exact .refl
  | cons b back ih =>
    have hset : (front ++ b :: back).set front.length a = (front ++ [a]) ++ back := by simp
    have hrest := ih (front ++ [a])
    have hreplicate : (front ++ [a]) ++ List.replicate back.length a =
        front ++ List.replicate (b :: back).length a := by
      simp [List.replicate_succ]
    have hstep := h (front ++ b :: back) front.length
    rw [hset] at hstep
    rw [hreplicate] at hrest
    exact hrest.head hstep

/-- A deployment that nothing interferes with brings the list of the operator to the file
and to every server. -/
theorem reaches_deployed (hquiet : w.deploys = []) :
    Reaches w { w with
      stored := w.wanted, servers := List.replicate w.servers.length w.wanted } := by
  obtain ⟨wanted, stored, deploys, servers, issued, held⟩ := w
  obtain rfl : deploys = [] := hquiet
  have hbegin : Step ⟨wanted, stored, [], servers, issued, held⟩
      ⟨wanted, stored, [.begun wanted], servers, issued, held⟩ := .begin
  have hstore : Step ⟨wanted, stored, [.begun wanted], servers, issued, held⟩
      ⟨wanted, wanted, [.stored], servers, issued, held⟩ := .store (i := 0) rfl
  have hread : Step ⟨wanted, wanted, [.stored], servers, issued, held⟩
      ⟨wanted, wanted, [.applying wanted], servers, issued, held⟩ := .read (i := 0) rfl
  have hrestart : Reaches ⟨wanted, wanted, [.applying wanted], servers, issued, held⟩
      ⟨wanted, wanted, [.applying wanted], List.replicate servers.length wanted, issued, held⟩ :=
    reaches_overwritten
      (fun l => (⟨wanted, wanted, [.applying wanted], l, issued, held⟩ : Rollout κ)) wanted
      (fun _ j => Step.restart (i := 0) j rfl) [] servers
  have hleave : Step
      ⟨wanted, wanted, [.applying wanted], List.replicate servers.length wanted, issued, held⟩
      ⟨wanted, wanted, [], List.replicate servers.length wanted, issued, held⟩ := .leave 0
  exact (((hrestart.head hread).head hstore).head hbegin).tail hleave

/-- The rotation to a credential: it is added, deployed, issued and taken over, and then
the others are dropped. -/
theorem reaches_rotated (hcovered : w.Covered) (hquiet : w.deploys = []) (k : κ) :
    Reaches w { wanted := [k], stored := [k], deploys := [],
                servers := List.replicate w.servers.length [k], issued := k,
                held := List.replicate w.held.length k } := by
  obtain ⟨wanted, stored, deploys, servers, issued, held⟩ := w
  obtain rfl : deploys = [] := hquiet
  have hadd : Step ⟨wanted, stored, [], servers, issued, held⟩
      ⟨k :: wanted, stored, [], servers, issued, held⟩ := by
    apply Step.edit
    intro k' hk'
    exact List.mem_cons_of_mem k (hcovered wanted List.mem_cons_self k' hk')
  have hdeploy := reaches_deployed (w := ⟨k :: wanted, stored, [], servers, issued, held⟩) rfl
  have hissue : Step
      ⟨k :: wanted, k :: wanted, [], List.replicate servers.length (k :: wanted), issued, held⟩
      ⟨k :: wanted, k :: wanted, [], List.replicate servers.length (k :: wanted), k, held⟩ := by
    apply Step.issue
    intro l hl
    obtain rfl | rfl | ⟨d, hd, -⟩ | hserver := mem_copies.mp hl
    · exact List.mem_cons_self
    · exact List.mem_cons_self
    · cases hd
    · rw [List.eq_of_mem_replicate hserver]
      exact List.mem_cons_self
  -- the holders take it over one after the other
  have hupdate : Reaches
      ⟨k :: wanted, k :: wanted, [], List.replicate servers.length (k :: wanted), k, held⟩
      ⟨k :: wanted, k :: wanted, [], List.replicate servers.length (k :: wanted), k,
        List.replicate held.length k⟩ :=
    reaches_overwritten (fun l => (⟨k :: wanted, k :: wanted, [],
      List.replicate servers.length (k :: wanted), k, l⟩ : Rollout κ)) k
      (fun _ j => Step.update j) [] held
  have hdrop : Step
      ⟨k :: wanted, k :: wanted, [], List.replicate servers.length (k :: wanted), k,
        List.replicate held.length k⟩
      ⟨[k], k :: wanted, [], List.replicate servers.length (k :: wanted), k,
        List.replicate held.length k⟩ := by
    apply Step.edit
    intro k' hk'
    obtain rfl | hheld := List.mem_cons.mp hk'
    · exact List.mem_singleton_self _
    · rw [List.eq_of_mem_replicate hheld]
      exact List.mem_singleton_self _
  have hredeploy := reaches_deployed
    (w := ⟨[k], k :: wanted, [], List.replicate servers.length (k :: wanted), k,
      List.replicate held.length k⟩) rfl
  simp only [List.length_replicate] at hredeploy
  exact ((((hdeploy.head hadd).tail hissue).trans hupdate).tail hdrop).trans hredeploy

end Rollout

end TelemetryApi
