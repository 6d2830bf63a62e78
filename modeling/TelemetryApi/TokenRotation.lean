import TelemetryApi.Auth
import TelemetryApi.CommaLists
import TelemetryApi.Foundations.Rollout

/-!
# Rotating the ingest tokens

The steps of `token_refresh.md`: the operator adds the new token to `api_ingest_tokens` in
front of the old one, the playbook renders `tokens.env` and recreates the containers, the
device build with the new token is shipped, devices are updated one by one, and when all are,
the old token is removed and the playbook run again. A container reads its tokens when it is
created; the deployment by CI recreates containers with the file that is there. Playbook
runs, CI deployments, failures and updates interleave.
-/

namespace TelemetryApi

/-- A token as the rotation generates them: a version and hexadecimal digits. -/
abbrev IngestToken := {s : String // s ≠ "" ∧ ∀ c ∈ s.toList, c.isAlphanum ∨ c = '_'}

/-- `TELEMETRY_INGEST_TOKENS={{ api_ingest_tokens }}` -/
def ingestTokensVar (tokens : List IngestToken) : String := PyStr.join "," (tokens.map (·.val))

/-- The settings of a server whose container was created with the tokens. -/
def Settings.withTokens (s : Settings) (tokens : List IngestToken) : Settings :=
  { s with ingestTokens := ingestTokensVar tokens }

/-- The header that a device sends. -/
def IngestToken.authorization (token : IngestToken) : Option String :=
  some ("Bearer" ++ " " ++ token.val)

/-! ## What a server accepts -/

theorem toNat_of_isAlphanum {c : Char} (h : c.isAlphanum ∨ c = '_') :
    48 ≤ c.toNat ∧ c.toNat ≤ 122 := by
  obtain h | rfl := h
  · obtain hletter | hdigit := Bool.or_eq_true_iff.mp h
    · obtain hupper | hlower := Bool.or_eq_true_iff.mp hletter
      · obtain ⟨hlow, hhigh⟩ := of_decide_eq_true hupper
        exact ⟨le_trans (by decide) hlow, le_trans hhigh (by decide)⟩
      · obtain ⟨hlow, hhigh⟩ := Bool.and_eq_true_iff.mp hlower
        exact ⟨le_trans (by decide) (of_decide_eq_true hlow), of_decide_eq_true hhigh⟩
    · obtain ⟨hlow, hhigh⟩ := Char.isDigit_iff_toNat.mp hdigit
      exact ⟨hlow, le_trans hhigh (by decide)⟩
  · decide

theorem isSpace_of_toNat {c : Char} (h : 48 ≤ c.toNat ∧ c.toNat ≤ 122) :
    PyStr.isSpace c = false := by
  simp only [PyStr.isSpace, Bool.or_eq_false_iff, Bool.and_eq_false_iff, decide_eq_false_iff_not,
    beq_eq_false_iff_ne]
  omega

namespace IngestToken

variable (token : IngestToken)

theorem isSpace_of_mem {c : Char} (h : c ∈ token.val.toList) : PyStr.isSpace c = false :=
  isSpace_of_toNat (toNat_of_isAlphanum (token.2.2 c h))

theorem strip_eq : PyStr.strip token.val = token.val := by
  have hleft : token.val.toList.dropWhile PyStr.isSpace = token.val.toList := by
    apply List.dropWhile_eq_self_iff.mpr
    intro hlen
    simp [token.isSpace_of_mem (List.getElem_mem hlen)]
  have hright : token.val.toList.rdropWhile PyStr.isSpace = token.val.toList := by
    apply List.rdropWhile_eq_self_iff.mpr
    intro hne
    simp [token.isSpace_of_mem (List.getLast_mem hne)]
  rw [PyStr.strip, hleft, hright, String.ofList_toList]

theorem listable : Listable token.val := by
  refine ⟨token.2.1, token.strip_eq, ?_⟩
  intro hcomma
  exact absurd (toNat_of_isAlphanum (token.2.2 ',' hcomma)) (by decide)

end IngestToken

namespace Settings

variable (s : Settings) {tokens : List IngestToken}

theorem mem_withTokens {t : String} :
    t ∈ (s.withTokens tokens).ingestTokenSet ↔ ∃ token ∈ tokens, token.val = t := by
  have hlistable : ∀ t ∈ tokens.map (·.val), Listable t := by
    intro t ht
    obtain ⟨token, -, rfl⟩ := List.mem_map.mp ht
    exact IngestToken.listable token
  rw [withTokens, ingestTokensVar, s.ingestTokenSet_join hlistable, List.mem_toFinset,
    List.mem_map]

theorem authRequired_withTokens (h : tokens ≠ []) : (s.withTokens tokens).authRequired := by
  obtain ⟨token, hmem⟩ := List.exists_mem_of_ne_nil tokens h
  apply decide_eq_true
  intro hempty
  have hset := s.mem_withTokens.mpr ⟨token, hmem, rfl⟩
  rw [hempty] at hset
  exact Finset.notMem_empty _ hset

/-- A server with tokens answers a device by its token. -/
theorem requireIngestToken_withTokens (h : tokens ≠ []) (token : IngestToken) :
    (s.withTokens tokens).requireIngestToken token.authorization =
      if token ∈ tokens then .ok () else .error (.http invalidToken) := by
  have hauth := s.authRequired_withTokens h
  have hpart : PyStr.partition ' ' ("Bearer" ++ " " ++ token.val) = ("Bearer", " ", token.val) :=
    PyStr.partition_append (by decide) token.val
  have hheader : "Bearer" ++ " " ++ token.val ≠ "" := by
    intro hempty
    rw [hempty] at hpart
    have hscheme : (PyStr.partition ' ' "").1 = "Bearer" := congrArg Prod.fst hpart
    exact absurd hscheme (by decide)
  have hmem : token.val ∈ (s.withTokens tokens).ingestTokenSet ↔ token ∈ tokens := by
    rw [mem_withTokens]
    constructor
    · rintro ⟨other, hother, heq⟩
      rwa [← Subtype.ext heq]
    · intro htoken
      exact ⟨token, htoken, rfl⟩
  have hlower : PyStr.lower "Bearer" = "bearer" := by decide
  simp only [requireIngestToken, hauth, IngestToken.authorization, hheader, checkBearer, hpart,
    hlower, token.2.1, hmem, Bool.not_true, Bool.false_eq_true, if_false, ne_eq, not_true_eq_false,
    or_self]
  by_cases htoken : token ∈ tokens
  · rw [if_pos htoken, if_neg (not_not.mpr htoken)]
  · rw [if_neg htoken, if_pos htoken]

theorem requireIngestToken_none_withTokens (h : tokens ≠ []) :
    (s.withTokens tokens).requireIngestToken none = .error (.http missingAuthorization) := by
  simp [requireIngestToken, s.authRequired_withTokens h]

end Settings

/-! ## The rotation -/

/-- In every interleaving every server admits every device, whichever token its build has,
and no request without a header. While no deployment is under way, the playbook brings the
servers to accept the tokens of `api_ingest_tokens` and no others, and every token can be
rotated in: all devices then have it, and every other token is refused. -/
theorem rotation_admits (s : Settings) {w₀ w : Rollout IngestToken} (h₀ : w₀.Covered)
    (h : Rollout.Reaches w₀ w) :
    (∀ tokens ∈ w.servers,
      (∀ token ∈ w.held, (s.withTokens tokens).requireIngestToken token.authorization = .ok ()) ∧
      (s.withTokens tokens).requireIngestToken none = .error (.http Settings.missingAuthorization)) ∧
    (w.deploys = [] → ∃ w', Rollout.Reaches w w' ∧ w'.held = w.held ∧
      w'.servers.length = w.servers.length ∧ ∀ tokens ∈ w'.servers, ∀ token : IngestToken,
        (s.withTokens tokens).requireIngestToken token.authorization =
          if token ∈ w.wanted then .ok () else .error (.http Settings.invalidToken)) ∧
    (w.deploys = [] → ∀ new : IngestToken, ∃ w', Rollout.Reaches w w' ∧
      w'.held.length = w.held.length ∧ (∀ token ∈ w'.held, token = new) ∧
      w'.servers.length = w.servers.length ∧ ∀ tokens ∈ w'.servers, ∀ token : IngestToken,
        (s.withTokens tokens).requireIngestToken token.authorization =
          if token = new then .ok () else .error (.http Settings.invalidToken)) := by
  have hcovered := h₀.reaches h
  have hne : ∀ tokens ∈ w.copies, tokens ≠ [] := by
    intro tokens htokens
    exact List.ne_nil_of_mem (hcovered tokens htokens w.issued List.mem_cons_self)
  refine ⟨?_, ?_, ?_⟩
  · intro tokens hserver
    have hcopy := Rollout.server_mem_copies hserver
    refine ⟨?_, s.requireIngestToken_none_withTokens (hne tokens hcopy)⟩
    intro token hheld
    rw [s.requireIngestToken_withTokens (hne tokens hcopy)]
    exact if_pos (hcovered tokens hcopy token (List.mem_cons_of_mem _ hheld))
  · intro hquiet
    refine ⟨_, Rollout.reaches_deployed hquiet, rfl, List.length_replicate, ?_⟩
    intro tokens hserver token
    obtain rfl := List.eq_of_mem_replicate hserver
    exact s.requireIngestToken_withTokens (hne w.wanted List.mem_cons_self) token
  · intro hquiet new
    refine ⟨_, Rollout.reaches_rotated hcovered hquiet new, List.length_replicate, ?_,
      List.length_replicate, ?_⟩
    · intro token hheld
      exact List.eq_of_mem_replicate hheld
    · intro tokens hserver token
      obtain rfl := List.eq_of_mem_replicate hserver
      rw [s.requireIngestToken_withTokens (List.cons_ne_nil new [])]
      simp only [List.mem_singleton]

def oldToken : IngestToken := ⟨"v1_a3f8", by simp⟩

def newToken : IngestToken := ⟨"v2_b9e2", by simp⟩

/-- Two containers before the rotation. -/
def beforeRotation : Rollout IngestToken where
  wanted := [oldToken]
  stored := [oldToken]
  deploys := []
  servers := [[oldToken], [oldToken]]
  issued := oldToken
  held := [oldToken]

/-- The playbook has recreated the first of them. -/
def duringRotation : Rollout IngestToken where
  wanted := [newToken, oldToken]
  stored := [newToken, oldToken]
  deploys := [.applying [newToken, oldToken]]
  servers := [[newToken, oldToken], [oldToken]]
  issued := oldToken
  held := [oldToken]

theorem reaches_duringRotation : Rollout.Reaches beforeRotation duringRotation := by
  have hedit := Rollout.Step.edit (w := beforeRotation) [newToken, oldToken] (by decide)
  refine .head hedit (.head .begin (.head (.store (i := 0) rfl) (.head (.read (i := 0) rfl) ?_)))
  exact .single (.restart (i := 0) 0 rfl)

/-- Both containers admit the device with the old token. -/
theorem rotation_admits_during :
    (({} : Settings).withTokens [newToken, oldToken]).requireIngestToken oldToken.authorization =
        .ok () ∧
      (({} : Settings).withTokens [oldToken]).requireIngestToken oldToken.authorization =
        .ok () := by
  have hcovered : beforeRotation.Covered := by
    intro tokens htokens token htoken
    revert tokens token
    decide
  obtain ⟨hadmits, -, -⟩ := rotation_admits {} hcovered reaches_duringRotation
  exact ⟨(hadmits _ List.mem_cons_self).1 oldToken List.mem_cons_self,
    (hadmits _ (List.mem_cons_of_mem _ List.mem_cons_self)).1 oldToken List.mem_cons_self⟩

end TelemetryApi
