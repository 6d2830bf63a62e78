import TelemetryApi.Firewall

/-!
# The firewall over the weeks

The playbook runs `ufw-allow-cloudflare` once and cron runs it every week, each time with
what can be fetched then. The rules are told by all the fetches together: a rule that the
script does not match stays for good, and one that it matches stays until the next run.
-/

namespace TelemetryApi

/-- The two fetches of a run. -/
abbrev UfwRun := Fetch × Fetch

/-- The rules of the addresses that a run has fetched. -/
def UfwRun.fetched (run : UfwRun) : List UfwRule := fetchedRules (run.1.words ++ run.2.words)

/-- The rules behind a sequence of runs. -/
def ufwRuns (rules : List UfwRule) (runs : List UfwRun) : List UfwRule :=
  runs.foldl (fun rules run => ufwAllowCloudflare rules run.1 run.2) rules

/-- The rules that the script does not match. -/
def keptRules (rules : List UfwRule) : List UfwRule := rules.filter (! ·.selected)

variable {rules : List UfwRule} {rule : UfwRule}

theorem mem_keptRules : rule ∈ keptRules rules ↔ rule ∈ rules ∧ ¬ rule.selected := by
  simp [keptRules]

theorem ufwAllowCloudflare_eq_kept (rules : List UfwRule) (run : UfwRun) :
    ufwAllowCloudflare rules run.1 run.2 =
      keptRules rules ++ missing (keptRules rules) run.fetched :=
  ufwAllowCloudflare_eq rules run.1 run.2

/-- One run keeps the rules that are not matched and has the fetched ones. -/
theorem mem_ufwAllowCloudflare {run : UfwRun} :
    rule ∈ ufwAllowCloudflare rules run.1 run.2 ↔ rule ∈ run.fetched ∨ rule ∈ keptRules rules := by
  rw [ufwAllowCloudflare_eq_kept, List.mem_append, mem_missing]
  by_cases hkept : rule ∈ keptRules rules
  · simp [hkept]
  · simp [hkept]

theorem keptRules_kept_run (rules : List UfwRule) (run : UfwRun) :
    keptRules rules <+: ufwAllowCloudflare rules run.1 run.2 :=
  ⟨_, (ufwAllowCloudflare_eq_kept rules run).symm⟩

theorem keptRules_kept_self (rules : List UfwRule) :
    keptRules (keptRules rules) = keptRules rules := by
  simp only [keptRules, List.filter_filter, Bool.and_self]

theorem nodup_run (h : (keptRules rules).Nodup) (run : UfwRun) :
    (ufwAllowCloudflare rules run.1 run.2).Nodup := by
  rw [ufwAllowCloudflare_eq_kept, List.nodup_append]
  refine ⟨h, nodup_missing _ _, ?_⟩
  rintro rule hkept _ hadded rfl
  exact (mem_missing.mp hadded).2 hkept

/-- What the script matches among the rules of a run is dropped and added again by the next
run with the same fetch, behind all the others. -/
theorem run_again_perm (rules : List UfwRule) (run : UfwRun) :
    (ufwAllowCloudflare (ufwAllowCloudflare rules run.1 run.2) run.1 run.2).Perm
      (ufwAllowCloudflare rules run.1 run.2) := by
  have hkept : keptRules (ufwAllowCloudflare rules run.1 run.2) =
      keptRules rules ++ (missing (keptRules rules) run.fetched).filter (! ·.selected) := by
    rw [ufwAllowCloudflare_eq_kept, keptRules, List.filter_append, ← keptRules, keptRules_kept_self]
  have hagain : (missing (keptRules (ufwAllowCloudflare rules run.1 run.2)) run.fetched).Perm
      ((missing (keptRules rules) run.fetched).filter (·.selected)) := by
    apply (List.perm_ext_iff_of_nodup (nodup_missing _ _) ((nodup_missing _ _).filter _)).mpr
    intro rule
    rw [mem_missing, List.mem_filter, mem_missing, mem_keptRules, mem_keptRules,
      mem_ufwAllowCloudflare]
    constructor
    · rintro ⟨hfetched, hdropped⟩
      have hselected : rule.selected := by
        by_contra hkeep
        exact hdropped ⟨.inl hfetched, hkeep⟩
      exact ⟨⟨hfetched, fun hkeep => hkeep.2 hselected⟩, hselected⟩
    · rintro ⟨⟨hfetched, -⟩, hselected⟩
      exact ⟨hfetched, fun hkeep => hkeep.2 hselected⟩
  rw [hkept] at hagain
  rw [ufwAllowCloudflare_eq_kept _ run, hkept, List.append_assoc,
    ufwAllowCloudflare_eq_kept rules run]
  refine List.Perm.append_left _ ((hagain.append_left _).trans ?_)
  exact List.perm_append_comm.trans (List.filter_append_perm _ _)

theorem ufwRuns_concat (rules : List UfwRule) (runs : List UfwRun) (run : UfwRun) :
    ufwRuns rules (runs ++ [run]) = ufwAllowCloudflare (ufwRuns rules runs) run.1 run.2 := by
  rw [ufwRuns, List.foldl_append]
  rfl

/-- The rules that no run matches: those of the beginning and all that were ever fetched. -/
theorem mem_keptRules_ufwRuns (rules : List UfwRule) (runs : List UfwRun) :
    rule ∈ keptRules (ufwRuns rules runs) ↔
      ¬ rule.selected ∧ (rule ∈ rules ∨ ∃ run ∈ runs, rule ∈ run.fetched) := by
  induction runs using List.reverseRecOn with
  | nil => simp [mem_keptRules, ufwRuns, and_comm]
  | append_singleton runs run ih =>
    have hruns : (∃ run' ∈ runs ++ [run], rule ∈ run'.fetched) ↔
        (∃ run' ∈ runs, rule ∈ run'.fetched) ∨ rule ∈ run.fetched := by
      simp [or_and_right, exists_or]
    rw [mem_keptRules, ufwRuns_concat, mem_ufwAllowCloudflare, ih, hruns]
    constructor
    · rintro ⟨hfetched | ⟨-, hearlier⟩, hkept⟩
      · exact ⟨hkept, .inr (.inr hfetched)⟩
      · exact ⟨hkept, hearlier.imp_right .inl⟩
    · rintro ⟨hkept, hrule | hearlier | hfetched⟩
      · exact ⟨.inr ⟨hkept, .inl hrule⟩, hkept⟩
      · exact ⟨.inr ⟨hkept, .inr hearlier⟩, hkept⟩
      · exact ⟨.inl hfetched, hkept⟩

theorem keptRules_kept (rules : List UfwRule) (runs : List UfwRun) :
    keptRules rules <+: keptRules (ufwRuns rules runs) := by
  induction runs using List.reverseRecOn with
  | nil => exact List.prefix_rfl
  | append_singleton runs run ih =>
    rw [ufwRuns_concat]
    apply ih.trans
    have hkept := (keptRules_kept_run (ufwRuns rules runs) run).filter (! ·.selected)
    simpa only [keptRules, List.filter_filter, Bool.and_self] using hkept

theorem nodup_keptRules_ufwRuns (h : (keptRules rules).Nodup) (runs : List UfwRun) :
    (keptRules (ufwRuns rules runs)).Nodup := by
  induction runs using List.reverseRecOn with
  | nil => exact h
  | append_singleton runs run ih =>
    rw [ufwRuns_concat]
    exact (nodup_run ih run).filter _

/-- Behind any sequence of runs: the rules are those of the last fetch, and of the rules at
the beginning and of all earlier fetches those that the script does not match. What it does
not match keeps its place at the head, no rule comes twice unless one of these did before, and
a run with the same fetch again changes the order at most. -/
theorem ufwRuns_spec (rules : List UfwRule) (earlier : List UfwRun) (last : UfwRun) :
    (∀ rule, rule ∈ ufwRuns rules (earlier ++ [last]) ↔ rule ∈ last.fetched ∨
      ¬ rule.selected ∧ (rule ∈ rules ∨ ∃ run ∈ earlier, rule ∈ run.fetched)) ∧
    keptRules rules <+: ufwRuns rules (earlier ++ [last]) ∧
    ((keptRules rules).Nodup → (ufwRuns rules (earlier ++ [last])).Nodup) ∧
    (ufwRuns rules (earlier ++ [last] ++ [last])).Perm (ufwRuns rules (earlier ++ [last])) := by
  refine ⟨?_, ?_, ?_, ?_⟩
  · intro rule
    rw [ufwRuns_concat, mem_ufwAllowCloudflare, mem_keptRules_ufwRuns]
  · rw [ufwRuns_concat]
    exact (keptRules_kept rules earlier).trans (keptRules_kept_run _ last)
  · intro hnodup
    rw [ufwRuns_concat]
    exact nodup_run (nodup_keptRules_ufwRuns hnodup earlier) last
  · rw [ufwRuns_concat _ _ last, ufwRuns_concat _ _ last]
    exact run_again_perm _ last

/-- A rule of an address that is no longer fetched stays for good exactly if neither port
occurs in the text of the address. -/
theorem webRule_stays_iff {port : Nat} (hport : port ∈ [80, 443]) {cidr : String}
    (rules : List UfwRule) {earlier : List UfwRun} {last : UfwRun}
    (hfetched : ∃ run ∈ earlier, webRule cidr port ∈ run.fetched)
    (hgone : webRule cidr port ∉ last.fetched) :
    webRule cidr port ∈ ufwRuns rules (earlier ++ [last]) ↔ ¬ containsWebPort cidr.toList := by
  rw [ufwRuns_concat, mem_ufwAllowCloudflare, mem_keptRules_ufwRuns, selected_webRule hport]
  constructor
  · rintro (hlast | ⟨hkept, -⟩)
    · exact absurd hlast hgone
    · exact hkept
  · exact fun hkept => .inr ⟨hkept, .inr hfetched⟩

/-- Two weekly runs, the second without the address of the first. -/
def firstRun : UfwRun := (⟨"173.245.48.0/20\n", true⟩, ⟨"", true⟩)

def secondRun : UfwRun := (⟨"104.16.0.0/13\n", true⟩, ⟨"", true⟩)

/-- The address that is no longer fetched keeps its rules. -/
theorem ufwRuns_spec_weeks :
    webRule "173.245.48.0/20" 80 ∈ ufwRuns bootstrapRules ([firstRun] ++ [secondRun]) ∧
      (ufwRuns bootstrapRules ([firstRun] ++ [secondRun])).Nodup ∧
      (ufwRuns bootstrapRules ([firstRun] ++ [secondRun] ++ [secondRun])).Perm
        (ufwRuns bootstrapRules ([firstRun] ++ [secondRun])) := by
  obtain ⟨hmem, -, hnodup, hagain⟩ := ufwRuns_spec bootstrapRules [firstRun] secondRun
  exact ⟨(hmem _).mpr (.inr ⟨by decide +kernel, .inr ⟨firstRun, by simp, by decide +kernel⟩⟩),
    hnodup (by decide +kernel), hagain⟩

end TelemetryApi
