import TelemetryApi.Config
import TelemetryApi.Runtime

/-!
# Bearer tokens

`require_ingest_token` of `app/auth.py`, and what a header must look like to
pass it.
-/

namespace TelemetryApi

namespace Settings

variable (s : Settings)

def missingAuthorization : HttpError :=
  ⟨401, "missing Authorization header", [("WWW-Authenticate", "Bearer")]⟩

def expectedBearer : HttpError := ⟨401, "expected Bearer token", [("WWW-Authenticate", "Bearer")]⟩

def invalidToken : HttpError := ⟨403, "invalid ingest token", []⟩

/-- The checks on the scheme and the token of a header. -/
def checkBearer (authorization : String) : Except PyExc Unit :=
  let (scheme, _, token) := PyStr.partition ' ' authorization
  if PyStr.lower scheme ≠ "bearer" ∨ token = "" then .error (.http expectedBearer)
  else if token ∉ s.ingestTokenSet then .error (.http invalidToken)
  else .ok ()

/-- `require_ingest_token` -/
def requireIngestToken (authorization : Option String) : Except PyExc Unit :=
  -- no tokens are configured: authentication is off
  if !s.authRequired then .ok ()
  else match authorization with
    | none => .error (.http missingAuthorization)
    | some header =>
      if header = "" then .error (.http missingAuthorization) else s.checkBearer header

/-- The header names a configured token under the Bearer scheme. -/
def CarriesToken (authorization : Option String) : Prop :=
  ∃ scheme token, authorization = some (scheme ++ " " ++ token) ∧
    PyStr.lower scheme = "bearer" ∧ token ∈ s.ingestTokenSet

theorem ne_empty_of_mem_ingestTokenSet {token : String} (h : token ∈ s.ingestTokenSet) :
    token ≠ "" := by
  simp only [ingestTokenSet, List.mem_toFinset, List.mem_map, List.mem_filter] at h
  obtain ⟨t, ⟨-, ht⟩, rfl⟩ := h
  exact of_decide_eq_true ht

theorem space_notMem_of_lower {scheme : String} (h : PyStr.lower scheme = "bearer") :
    ' ' ∉ scheme.toList := by
  intro hmem
  have hlower : ' ' ∈ (PyStr.lower scheme).toList := by
    rw [PyStr.lower, String.toList_ofList]
    exact List.mem_map_of_mem (f := Char.toLower) hmem
  rw [h] at hlower
  exact absurd hlower (by decide)

theorem checkBearer_eq_ok_iff (authorization : String) :
    s.checkBearer authorization = .ok () ↔ s.CarriesToken (some authorization) := by
  constructor
  · intro h
    by_cases hspace : ' ' ∈ authorization.toList
    · obtain ⟨scheme, token, hscheme, rfl⟩ := PyStr.exists_append_of_mem hspace
      simp only [checkBearer, PyStr.partition_append hscheme token] at h
      split_ifs at h with hbearer htoken
      rw [not_or, not_not] at hbearer
      exact ⟨scheme, token, rfl, hbearer.1, htoken⟩
    · simp [checkBearer, PyStr.partition_of_notMem hspace] at h
  · rintro ⟨scheme, token, heq, hbearer, htoken⟩
    obtain rfl := Option.some.inj heq
    have hpart : PyStr.partition ' ' (scheme ++ " " ++ token) = (scheme, " ", token) :=
      PyStr.partition_append (space_notMem_of_lower hbearer) token
    have hne := s.ne_empty_of_mem_ingestTokenSet htoken
    simp [checkBearer, hpart, hbearer, htoken, hne]

/-- With tokens configured, exactly the headers that carry one of them pass. -/
theorem requireIngestToken_eq_ok_iff (hauth : s.authRequired) (authorization : Option String) :
    s.requireIngestToken authorization = .ok () ↔ s.CarriesToken authorization := by
  simp only [requireIngestToken]
  rw [hauth]
  cases authorization with
  | none => simp [CarriesToken]
  | some header =>
    simp only [Bool.not_true, Bool.false_eq_true, if_false]
    by_cases hempty : header = ""
    · subst hempty
      simp [CarriesToken]
    · rw [if_neg hempty, checkBearer_eq_ok_iff]

theorem checkBearer_eq_error {authorization : String} {e : PyExc}
    (h : s.checkBearer authorization = .error e) :
    e = .http expectedBearer ∨ e = .http invalidToken := by
  rw [checkBearer] at h
  rcases PyStr.partition ' ' authorization with ⟨scheme, sep, token⟩
  simp only at h
  split_ifs at h
  · cases h
    exact Or.inl rfl
  · cases h
    exact Or.inr rfl

/-- A refusal is one of the three answers of the dependency. -/
theorem requireIngestToken_eq_error {authorization : Option String} {e : PyExc}
    (h : s.requireIngestToken authorization = .error e) :
    e = .http missingAuthorization ∨ e = .http expectedBearer ∨ e = .http invalidToken := by
  simp only [requireIngestToken] at h
  split at h
  · cases h
  · split at h
    · cases h
      exact Or.inl rfl
    · split_ifs at h
      · cases h
        exact Or.inl rfl
      · exact Or.inr (s.checkBearer_eq_error h)

/-! ## Whom the raw value admits -/

/-- A comma-separated piece of the raw value, trimmed, is the token. -/
def Configures (token : String) : Prop :=
  token ≠ "" ∧ ∃ piece ∈ PyStr.split ',' s.ingestTokens, PyStr.strip piece = token

theorem mem_ingestTokenSet {token : String} : token ∈ s.ingestTokenSet ↔ s.Configures token := by
  simp only [ingestTokenSet, List.mem_toFinset, List.mem_map, List.mem_filter, decide_eq_true_eq,
    Configures]
  constructor
  · rintro ⟨piece, ⟨hpiece, hne⟩, rfl⟩
    exact ⟨hne, piece, hpiece, rfl⟩
  · rintro ⟨hne, piece, hpiece, rfl⟩
    exact ⟨piece, ⟨hpiece, hne⟩, rfl⟩

theorem authRequired_iff : s.authRequired ↔ ∃ token, s.Configures token := by
  simp only [authRequired, decide_eq_true_eq, ← Finset.nonempty_iff_ne_empty, Finset.Nonempty,
    mem_ingestTokenSet]

/-- The header has the scheme Bearer and some token. -/
def NamesToken (authorization : Option String) : Prop :=
  ∃ scheme token, authorization = some (scheme ++ " " ++ token) ∧
    PyStr.lower scheme = "bearer" ∧ token ≠ ""

/-- A header is refused for its form with 401, and for its token with 403. -/
theorem checkBearer_status {authorization : String} {e : PyExc}
    (h : s.checkBearer authorization = .error e) :
    e = .http expectedBearer ∧ ¬ NamesToken (some authorization) ∨
      e = .http invalidToken ∧ NamesToken (some authorization) := by
  by_cases hspace : ' ' ∈ authorization.toList
  · obtain ⟨scheme, token, hscheme, rfl⟩ := PyStr.exists_append_of_mem hspace
    simp only [checkBearer, PyStr.partition_append hscheme token] at h
    split_ifs at h with hbearer htoken
    · refine Or.inl ⟨(Except.error.inj h).symm, ?_⟩
      rintro ⟨scheme', token', heq, hlower, hne⟩
      -- the first space splits the header in one way only
      have hparts := congrArg (PyStr.partition ' ') (Option.some.inj heq)
      rw [PyStr.partition_append hscheme token] at hparts
      rw [show scheme' ++ " " ++ token' = scheme' ++ String.singleton ' ' ++ token' from rfl,
        PyStr.partition_append (space_notMem_of_lower hlower) token', Prod.mk.injEq,
        Prod.mk.injEq] at hparts
      obtain ⟨rfl, -, rfl⟩ := hparts
      exact hbearer.elim (fun h => h hlower) hne
    · rw [not_or, not_not] at hbearer
      exact Or.inr ⟨(Except.error.inj h).symm, scheme, token, rfl, hbearer⟩
  · refine Or.inl ⟨?_, ?_⟩
    · simp only [checkBearer, PyStr.partition_of_notMem hspace] at h
      simpa using h.symm
    · rintro ⟨scheme, token, heq, -, -⟩
      exact hspace (by simp [Option.some.inj heq])

/-- Every request is admitted when no token is configured, and otherwise the ones
that carry a configured token; of the others, those without a Bearer token are
refused with 401 and the rest with 403. -/
theorem requireIngestToken_admits_iff (authorization : Option String) :
    (s.requireIngestToken authorization = .ok () ↔
      (¬ ∃ token, s.Configures token) ∨ ∃ scheme token,
        authorization = some (scheme ++ " " ++ token) ∧ PyStr.lower scheme = "bearer" ∧
          s.Configures token) ∧
    ((∃ token, s.Configures token) →
      s.requireIngestToken none = .error (.http missingAuthorization)) ∧
    ∀ e, s.requireIngestToken authorization = .error e →
      ∃ http, e = .http http ∧ (http.statusCode = 401 ∧ ¬ NamesToken authorization ∨
        http.statusCode = 403 ∧ NamesToken authorization) := by
  have hcarries : s.CarriesToken authorization ↔ ∃ scheme token,
      authorization = some (scheme ++ " " ++ token) ∧ PyStr.lower scheme = "bearer" ∧
        s.Configures token := by
    simp only [CarriesToken, mem_ingestTokenSet]
  refine ⟨?_, ?_, ?_⟩
  · rw [← hcarries, ← s.authRequired_iff]
    by_cases hauth : s.authRequired
    · simp [s.requireIngestToken_eq_ok_iff hauth, hauth]
    · simp [requireIngestToken, hauth]
  · intro htoken
    simp [requireIngestToken, s.authRequired_iff.mpr htoken]
  · intro e he
    simp only [requireIngestToken] at he
    split at he
    · cases he
    · split at he
      · cases he
        exact ⟨_, rfl, Or.inl ⟨rfl, by simp [NamesToken]⟩⟩
      · split_ifs at he with hempty
        · cases he
          exact ⟨_, rfl, Or.inl ⟨rfl, by simp [NamesToken, hempty]⟩⟩
        · rcases s.checkBearer_status he with ⟨rfl, hform⟩ | ⟨rfl, hform⟩
          · exact ⟨_, rfl, Or.inl ⟨rfl, hform⟩⟩
          · exact ⟨_, rfl, Or.inr ⟨rfl, hform⟩⟩

def separatorSettings : Settings := { ingestTokens := " , " }

/-- A raw value of separators and blanks is set and configures no token. -/
theorem requireIngestToken_separators :
    separatorSettings.ingestTokens ≠ "" ∧ separatorSettings.requireIngestToken none = .ok () :=
  ⟨by decide, rfl⟩

end Settings

end TelemetryApi
