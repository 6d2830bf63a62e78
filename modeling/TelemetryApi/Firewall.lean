import TelemetryApi.Foundations.LineTools
import TelemetryApi.Foundations.Numbered

/-!
# The firewall rules of the host

`ufw-allow-cloudflare`, the script that the playbook of `deploy/ansible` installs and
runs every week. It reads the rules from the lines of `ufw status numbered`.
-/

namespace TelemetryApi

/-- The `To` column of a rule, and the port ranges that it stands for. -/
structure UfwTarget where
  column : String
  ports : List (Nat × Nat)
  deriving DecidableEq

def UfwTarget.covers (target : UfwTarget) (port : Nat) : Bool :=
  target.ports.any fun range => range.1 ≤ port && port ≤ range.2

inductive UfwVerb where
  | allow
  | deny
  | reject
  | limit
  deriving DecidableEq

def UfwVerb.column : UfwVerb → String
  | allow => "ALLOW"
  | deny => "DENY"
  | reject => "REJECT"
  | limit => "LIMIT"

inductive UfwDirection where
  | inbound
  | outbound
  | routed
  deriving DecidableEq

def UfwDirection.column : UfwDirection → String
  | inbound => "IN"
  | outbound => "OUT"
  | routed => "FWD"

/-- `source` is the `From` column with all that is printed behind it. -/
structure UfwRule where
  target : UfwTarget
  verb : UfwVerb
  direction : UfwDirection
  source : String
  deriving DecidableEq

namespace UfwRule

/-- The rule as it is printed behind its number. -/
def columns (rule : UfwRule) : List Char :=
  rule.target.column.toList ++ ' ' :: (rule.verb.column.toList ++ ' ' ::
    (rule.direction.column.toList ++ ' ' :: rule.source.toList))

def forWeb (rule : UfwRule) : Bool := rule.target.covers 80 || rule.target.covers 443

/-- One of the rules that let requests through to the ports 80 and 443. -/
def allowsWeb (rule : UfwRule) : Bool :=
  rule.forWeb && decide (rule.verb = .allow) && decide (rule.direction = .inbound)

end UfwRule

/-! ## The commands of the script -/

/-- The number of a rule, padded to two places. -/
def numberColumn (n : Nat) : List Char :=
  List.replicate (2 - (Nat.toDigits 10 n).length) ' ' ++ Nat.toDigits 10 n

def statusLine (n : Nat) (rule : UfwRule) : List Char :=
  '[' :: (numberColumn n ++ ']' :: ' ' :: rule.columns)

/-- `ufw status numbered`. -/
def statusNumbered (rules : List UfwRule) : List (List Char) :=
  (rules.zipIdx 1).map fun x => statusLine x.2 x.1

def containsText (text : List Char) (line : List Char) : Bool := decide (text <:+: line)

/-- `80|443`. -/
def containsWebPort (text : List Char) : Bool :=
  containsText ['8', '0'] text || containsText ['4', '4', '3'] text

def allowIn : List Char := "ALLOW IN".toList

/-- `/ALLOW IN.*(80|443)/`. -/
def matchesWebPort (line : List Char) : Bool := followedBy allowIn containsWebPort line

/-- `awk -F'[][]'` with the second field printed for each line that matches. -/
def webRuleNumbers (lines : List (List Char)) : List (List Char) :=
  (lines.filter matchesWebPort).map (secondField fun c => c == ']' || c == '[')

/-- `ufw delete`, with the number as a text. -/
def ufwDelete (rules : List UfwRule) (number : List Char) : List UfwRule :=
  deleteNumber rules (numericValue number)

/-- The first step of the script. -/
def dropWebRules (rules : List UfwRule) : List UfwRule :=
  (sortDescending (webRuleNumbers (statusNumbered rules))).foldl ufwDelete rules

def webRule (cidr : String) (port : Nat) : UfwRule :=
  ⟨⟨toString port ++ "/tcp", [(port, port)]⟩, .allow, .inbound, cidr⟩

/-- `ufw allow proto tcp from "$cidr" to any port`. -/
def ufwAllow (rules : List UfwRule) (cidr : String) (port : Nat) : List UfwRule :=
  addMissing rules (webRule cidr port)

/-- What `curl -fsS` has printed, and whether it exits with 0. -/
structure Fetch where
  output : String
  ok : Bool

/-- The words of the output. -/
def Fetch.words (fetch : Fetch) : List String :=
  ((fetch.output.toList.splitOnP (· ∈ [' ', '\t', '\n'])).filter (· ≠ [])).map String.ofList

/-- `ufw-allow-cloudflare`. A fetch that fails does not end the loop over the words. -/
def ufwAllowCloudflare (rules : List UfwRule) (v4 v6 : Fetch) : List UfwRule :=
  (v4.words ++ v6.words).foldl (fun rules cidr => ufwAllow (ufwAllow rules cidr 80) cidr 443)
    (dropWebRules rules)

/-! ## What the rules are meant to be -/

/-- The rules for 80 and 443 are those of the CIDRs, and the rules for other ports are
the same as before. -/
structure Synced (rules final : List UfwRule) (cidrs : List String) : Prop where
  web : ∀ rule, rule ∈ final ∧ rule.allowsWeb ↔
    ∃ cidr ∈ cidrs, ∃ port ∈ [80, 443], rule = webRule cidr port
  once : (final.filter UfwRule.allowsWeb).Nodup
  others : final.filter (! ·.forWeb) = rules.filter (! ·.forWeb)

def SyncLaw (rules : List UfwRule) (v4 v6 : Fetch) : Prop :=
  if v4.ok && v6.ok then Synced rules (ufwAllowCloudflare rules v4 v6) (v4.words ++ v6.words)
  else ufwAllowCloudflare rules v4 v6 = rules

/-! ## Which rules are dropped -/

/-- A rule whose line is matched. -/
def UfwRule.selected (rule : UfwRule) : Bool := matchesWebPort rule.columns

theorem ne_of_mem_numberColumn {c d : Char} {n : Nat} (hc : c ∈ numberColumn n)
    (hblank : d ≠ ' ') (hdigit : d.isDigit = false) : c ≠ d := by
  rintro rfl
  obtain hc | hc := List.mem_append.mp hc
  · exact hblank (List.eq_of_mem_replicate hc)
  · rw [Nat.isDigit_of_mem_toDigits (by decide) (by decide) hc] at hdigit
    exact Bool.true_eq_false_eq_False hdigit

/-- The number of a rule has no part in it. -/
theorem matchesWebPort_statusLine (n : Nat) (rule : UfwRule) :
    matchesWebPort (statusLine n rule) = rule.selected := by
  have hline : statusLine n rule = ('[' :: numberColumn n ++ [']', ' ']) ++ rule.columns := by
    simp [statusLine]
  have hnumber : 'A' ∉ numberColumn n := fun hmem =>
    ne_of_mem_numberColumn hmem (by decide) (by decide) rfl
  have hfront : 'A' ∉ '[' :: numberColumn n ++ [']', ' '] := by
    simp [hnumber]
  rw [hline]
  exact followedBy_append_of_notMem hfront _ _

theorem secondField_statusLine (n : Nat) (rule : UfwRule) :
    secondField (fun c => c == ']' || c == '[') (statusLine n rule) = numberColumn n := by
  apply secondField_append rfl _ rfl
  intro c hc
  have hclose : c ≠ ']' := ne_of_mem_numberColumn hc (by decide) (by decide)
  have hopen : c ≠ '[' := ne_of_mem_numberColumn hc (by decide) (by decide)
  simp [hclose, hopen]

theorem webRuleNumbers_statusNumbered (rules : List UfwRule) :
    webRuleNumbers (statusNumbered rules) =
      (numbersOf UfwRule.selected rules).map numberColumn := by
  have hmatch : matchesWebPort ∘ (fun x : UfwRule × Nat => statusLine x.2 x.1) =
      fun x => x.1.selected := by
    funext x
    exact matchesWebPort_statusLine x.2 x.1
  have hfield : secondField (fun c => c == ']' || c == '[') ∘
      (fun x : UfwRule × Nat => statusLine x.2 x.1) = numberColumn ∘ (·.2) := by
    funext x
    exact secondField_statusLine x.2 x.1
  rw [webRuleNumbers, statusNumbered, List.filter_map, hmatch, List.map_map, hfield, numbersOf,
    List.map_map]

theorem numericValue_numberColumn (n : Nat) : numericValue (numberColumn n) = n := by
  rw [numberColumn, numericValue_replicate_append, numericValue_toDigits]

/-- Exactly the matched rules are dropped, however many they are. -/
theorem dropWebRules_eq_filter (rules : List UfwRule) :
    dropWebRules rules = rules.filter (! ·.selected) := by
  have hnumbers : ((numbersOf UfwRule.selected rules).map numberColumn).map numericValue =
      numbersOf UfwRule.selected rules := by
    rw [List.map_map]
    exact List.map_id'' numericValue_numberColumn _
  calc dropWebRules rules
      = ((sortDescending (webRuleNumbers (statusNumbered rules))).map numericValue).foldl
          deleteNumber rules := by rw [List.foldl_map]; rfl
    _ = (numbersOf UfwRule.selected rules).reverse.foldl deleteNumber rules := by
        rw [map_numericValue_sortDescending, webRuleNumbers_statusNumbered, hnumbers,
          insertionSort_numbersOf]
    _ = rules.filter (! ·.selected) := foldl_deleteNumber_numbersOf _ _

theorem containsWebPort_of_suffix ⦃rest line : List Char⦄ (h : rest <:+ line)
    (hrest : containsWebPort rest) : containsWebPort line := by
  simp only [containsWebPort, containsText, Bool.or_eq_true, decide_eq_true_eq] at hrest ⊢
  exact hrest.imp (·.trans h.isInfix) (·.trans h.isInfix)

/-- Of the `ALLOW IN` rules those are matched that have `80` or `443` in the `From`
column. The ports that they allow have no part in it. -/
theorem UfwRule.selected_eq {rule : UfwRule} (hverb : rule.verb = .allow)
    (hdirection : rule.direction = .inbound)
    (hcolumn : ¬ allowIn <:+: rule.target.column.toList ++ [' ']) :
    rule.selected = containsWebPort rule.source.toList := by
  have hcolumns : rule.columns =
      (rule.target.column.toList ++ [' ']) ++ (allowIn ++ ' ' :: rule.source.toList) := by
    rw [columns, hverb, hdirection, List.append_assoc]
    rfl
  have hblank : containsWebPort (' ' :: rule.source.toList) =
      containsWebPort rule.source.toList := by
    simp [containsWebPort, containsText, List.infix_cons_iff]
  rw [selected, hcolumns, ← hblank]
  exact followedBy_append_self (by decide) hcolumn containsWebPort_of_suffix _

theorem selected_webRule {port : Nat} (hport : port ∈ [80, 443]) (cidr : String) :
    (webRule cidr port).selected = containsWebPort cidr.toList := by
  have hcolumn : ¬ allowIn <:+: (toString port ++ "/tcp").toList ++ [' '] := by
    revert port
    decide
  exact UfwRule.selected_eq rfl rfl hcolumn

/-! ## When the script does what it is meant to do -/

/-- The rules of the fetched addresses in the order in which they are added. -/
def fetchedRules (cidrs : List String) : List UfwRule :=
  cidrs.flatMap fun cidr => [webRule cidr 80, webRule cidr 443]

theorem mem_fetchedRules {cidrs : List String} {rule : UfwRule} :
    rule ∈ fetchedRules cidrs ↔ ∃ cidr ∈ cidrs, ∃ port ∈ [80, 443], rule = webRule cidr port := by
  simp [fetchedRules, List.mem_flatMap]

theorem allowsWeb_webRule {port : Nat} (hport : port ∈ [80, 443]) (cidr : String) :
    (webRule cidr port).allowsWeb := by
  obtain rfl | rfl : port = 80 ∨ port = 443 := by simpa using hport
  · rfl
  · rfl

theorem allowsWeb_of_mem_fetchedRules {cidrs : List String} {rule : UfwRule}
    (h : rule ∈ fetchedRules cidrs) : rule.allowsWeb := by
  obtain ⟨cidr, -, port, hport, rfl⟩ := mem_fetchedRules.mp h
  exact allowsWeb_webRule hport cidr

theorem UfwRule.forWeb_of_allowsWeb {rule : UfwRule} (h : rule.allowsWeb) : rule.forWeb := by
  simp only [allowsWeb, Bool.and_eq_true] at h
  exact h.1.1

theorem ufwAllowCloudflare_eq (rules : List UfwRule) (v4 v6 : Fetch) :
    ufwAllowCloudflare rules v4 v6 = rules.filter (! ·.selected) ++
      missing (rules.filter (! ·.selected)) (fetchedRules (v4.words ++ v6.words)) := by
  rw [← dropWebRules_eq_filter, ← foldl_addMissing, fetchedRules, List.foldl_flatMap]
  rfl

/-- No rule for another port is matched, and the rules for 80 and 443 that are not matched
are among the wanted ones, each of them once. -/
structure Separates (rules : List UfwRule) (cidrs : List String) : Prop where
  others : ∀ rule ∈ rules, ¬ rule.forWeb → ¬ rule.selected
  web : ∀ rule ∈ rules, rule.allowsWeb → ¬ rule.selected → rule ∈ fetchedRules cidrs
  once : (rules.filter fun rule => rule.allowsWeb && ! rule.selected).Nodup

/-- The matched rules are at the end, and are what the others lack of the fetched. -/
structure Restores (rules : List UfwRule) (cidrs : List String) : Prop where
  last : rules.filter (! ·.selected) ++ rules.filter (·.selected) = rules
  fetched : ((fetchedRules cidrs).filter (· ∉ rules.filter (! ·.selected))).eraseDups =
    rules.filter (·.selected)

section Synced

variable {rules kept : List UfwRule} {cidrs : List String}

theorem filter_allowsWeb_append_missing :
    (kept ++ missing kept (fetchedRules cidrs)).filter UfwRule.allowsWeb =
      kept.filter UfwRule.allowsWeb ++ missing kept (fetchedRules cidrs) := by
  rw [List.filter_append, filter_missing_eq_self fun rule h => allowsWeb_of_mem_fetchedRules h]

theorem filter_not_forWeb_append_missing :
    (kept ++ missing kept (fetchedRules cidrs)).filter (! ·.forWeb) =
      kept.filter (! ·.forWeb) := by
  have hnone : (missing kept (fetchedRules cidrs)).filter (! ·.forWeb) = [] := by
    apply List.filter_eq_nil_iff.mpr
    intro rule hrule
    have hweb := allowsWeb_of_mem_fetchedRules (mem_missing.mp hrule).1
    simp [UfwRule.forWeb_of_allowsWeb hweb]
  rw [List.filter_append, hnone, List.append_nil]

theorem nodup_append_missing_iff :
    (kept.filter UfwRule.allowsWeb ++ missing kept (fetchedRules cidrs)).Nodup ↔
      (kept.filter UfwRule.allowsWeb).Nodup := by
  rw [List.nodup_append]
  constructor
  · exact fun h => h.1
  · intro h
    refine ⟨h, nodup_missing _ _, ?_⟩
    rintro rule hkept _ hadded rfl
    exact (mem_missing.mp hadded).2 (List.mem_filter.mp hkept).1

theorem web_append_missing_iff :
    (∀ rule, rule ∈ kept ++ missing kept (fetchedRules cidrs) ∧ rule.allowsWeb ↔
      ∃ cidr ∈ cidrs, ∃ port ∈ [80, 443], rule = webRule cidr port) ↔
      ∀ rule ∈ kept, rule.allowsWeb → rule ∈ fetchedRules cidrs := by
  simp only [← mem_fetchedRules, List.mem_append, mem_missing]
  constructor
  · intro h rule hkept hweb
    exact (h rule).mp ⟨.inl hkept, hweb⟩
  · intro h rule
    constructor
    · rintro ⟨hkept | ⟨hfetched, -⟩, hweb⟩
      · exact h rule hkept hweb
      · exact hfetched
    · intro hfetched
      refine ⟨?_, allowsWeb_of_mem_fetchedRules hfetched⟩
      by_cases hkept : rule ∈ kept
      · exact .inl hkept
      · exact .inr ⟨hfetched, hkept⟩

end Synced

theorem synced_iff {rules : List UfwRule} {v4 v6 : Fetch} :
    Synced rules (ufwAllowCloudflare rules v4 v6) (v4.words ++ v6.words) ↔
      Separates rules (v4.words ++ v6.words) := by
  rw [ufwAllowCloudflare_eq]
  constructor
  · rintro ⟨hweb, honce, hothers⟩
    rw [web_append_missing_iff] at hweb
    rw [filter_allowsWeb_append_missing, nodup_append_missing_iff, List.filter_filter] at honce
    rw [filter_not_forWeb_append_missing, filter_filter_eq_iff] at hothers
    refine ⟨fun rule hrule hother => ?_, fun rule hrule hallows hkept => ?_, honce⟩
    · simpa using hothers rule hrule (by simpa using hother)
    · exact hweb rule (List.mem_filter.mpr ⟨hrule, by simpa using hkept⟩) hallows
  · rintro ⟨hothers, hweb, honce⟩
    refine ⟨web_append_missing_iff.mpr fun rule hrule hallows => ?_, ?_, ?_⟩
    · obtain ⟨hmem, hkept⟩ := List.mem_filter.mp hrule
      exact hweb rule hmem hallows (by simpa using hkept)
    · rw [filter_allowsWeb_append_missing, nodup_append_missing_iff, List.filter_filter]
      exact honce
    · rw [filter_not_forWeb_append_missing, filter_filter_eq_iff]
      intro rule hrule hother
      simpa using hothers rule hrule (by simpa using hother)

theorem unchanged_iff {rules : List UfwRule} {v4 v6 : Fetch} :
    ufwAllowCloudflare rules v4 v6 = rules ↔ Restores rules (v4.words ++ v6.words) := by
  rw [ufwAllowCloudflare_eq, filter_not_append_eq_iff, missing_eq_eraseDups]
  exact ⟨fun h => ⟨h.1, h.2⟩, fun h => ⟨h.1, h.2⟩⟩

/-- Where nothing is fetched, nothing may be matched. -/
theorem restores_nil_iff {rules : List UfwRule} :
    Restores rules [] ↔ ∀ rule ∈ rules, ¬ rule.selected := by
  rw [← List.filter_eq_nil_iff]
  constructor
  · exact fun h => h.fetched.symm
  · intro hnone
    refine ⟨?_, hnone.symm⟩
    rw [hnone, List.append_nil, List.filter_eq_self]
    intro rule hrule
    simpa using List.filter_eq_nil_iff.mp hnone rule hrule

/-- The script does what it is meant to do exactly when the lines with `80` or `443`
behind `ALLOW IN` are those of the rules to be replaced, and, where a fetch fails, when
what it drops is what it adds again. -/
theorem syncLaw_iff (rules : List UfwRule) (v4 v6 : Fetch) :
    SyncLaw rules v4 v6 ↔
      if v4.ok && v6.ok then Separates rules (v4.words ++ v6.words)
      else Restores rules (v4.words ++ v6.words) := by
  rw [SyncLaw]
  split_ifs
  · exact synced_iff
  · exact unchanged_iff

/-- What `bootstrap-server.sh` leaves. -/
def bootstrapRules : List UfwRule :=
  [⟨⟨"OpenSSH", [(22, 22)]⟩, .allow, .inbound, "Anywhere"⟩,
    webRule "Anywhere" 80, webRule "Anywhere" 443]

/-- SSH from a private network. -/
def privateSsh : UfwRule := ⟨⟨"22/tcp", [(22, 22)]⟩, .allow, .inbound, "10.80.0.0/16"⟩

/-- The origin stays open to everyone, and where nothing can be fetched a rule for SSH
is gone. -/
theorem syncLaw_bootstrap :
    (¬ SyncLaw bootstrapRules ⟨"173.245.48.0/20\n", true⟩ ⟨"2400:cb00::/32\n", true⟩ ∧
      ufwAllowCloudflare bootstrapRules ⟨"173.245.48.0/20\n", true⟩ ⟨"2400:cb00::/32\n", true⟩ =
        bootstrapRules ++ fetchedRules ["173.245.48.0/20", "2400:cb00::/32"]) ∧
      ¬ SyncLaw [privateSsh] ⟨"", false⟩ ⟨"", false⟩ ∧
        ufwAllowCloudflare [privateSsh] ⟨"", false⟩ ⟨"", false⟩ = [] := by
  refine ⟨⟨fun hlaw => ?_, by decide +kernel⟩, fun hlaw => ?_, by decide +kernel⟩
  · have hopen := (synced_iff.mp hlaw).web (webRule "Anywhere" 80) (by decide) rfl (by decide)
    exact absurd hopen (by decide +kernel)
  · exact absurd (unchanged_iff.mp hlaw).fetched (by decide +kernel)

end TelemetryApi
