import TelemetryApi.Dsn
import TelemetryApi.Foundations.Interpolation

/-!
# The migration environment

`alembic/env.py` stores the DSN of the settings in the Alembic configuration
and connects with what the configuration gives back.
-/

namespace TelemetryApi

open Interpolation

inductive ConfigError where
  | invalidSyntax
  | interpolation
  deriving DecidableEq

/-- The `[alembic]` section of `alembic.ini` and the default Alembic adds, the
directory of that file. -/
def alembicSection (here : String) (url : String) : List (String × String) :=
  [("script_location", "alembic"), ("prepend_sys_path", "."), ("sqlalchemy.url", url),
    ("here", here)]

/-- Option names are looked up in lower case. -/
def alembicLookup (here url : String) (name : List Char) : Option (List Char) :=
  ((alembicSection here url).lookup (String.ofList (name.map Char.toLower))).map String.toList

def readOption (here url : String) (option : String × String) :
    Except ConfigError (String × String) :=
  match readValue (alembicLookup here url) maxDepth option.2.toList with
  | some value => .ok (option.1, String.ofList value)
  | none => .error .interpolation

def readOptions (here url : String) :
    List (String × String) → Except ConfigError (List (String × String))
  | [] => .ok []
  | option :: rest =>
    match readOption here url option, readOptions here url rest with
    | .ok o, .ok os => .ok (o :: os)
    | .error e, _ => .error e
    | _, .error e => .error e

/-- `config.get_section(config.config_ini_section)`: every option is read. -/
def getSection (here url : String) : Except ConfigError (List (String × String)) :=
  readOptions here url (alembicSection here url)

/-- `config.set_main_option("sqlalchemy.url", url)`, then `run_async_migrations`
up to the URL of its engine. -/
def migrationUrl (here : String) (s : Settings) : Except ConfigError String :=
  if beforeSet s.resolvedDatabaseUrl.toList then
    match getSection here s.resolvedDatabaseUrl with
    | .ok options => .ok ((options.lookup "sqlalchemy.url").getD "")
    | .error e => .error e
  else .error .invalidSyntax

/-- No part of the DSN has a percent sign or has to be percent-encoded. -/
def Settings.PercentFree (s : Settings) : Prop :=
  if s.databaseUrl ≠ "" then '%' ∉ s.databaseUrl.toList
  else if s.hasComponents then
    (∀ c ∈ s.dbUser.toList ++ s.dbPassword.toList, c = ' ' ∨ Urllib.isAlwaysSafe c.toNat) ∧
      '%' ∉ s.dbHost.toList ∧ '%' ∉ s.dbName.toList
  else True

theorem percent_notMem_quotePlus (s : String) :
    '%' ∉ (Settings.quotePlus s).toList ↔
      ∀ c ∈ s.toList, c = ' ' ∨ Urllib.isAlwaysSafe c.toNat := by
  rw [Settings.quotePlus, String.toList_ofList, Urllib.percent_mem_quotePlus]
  constructor
  · intro h c hc
    by_contra hcon
    exact h ⟨c, hc, fun he => hcon (Or.inl he), fun hs => hcon (Or.inr hs)⟩
  · rintro h ⟨c, hc, hne, hs⟩
    exact (h c hc).elim hne hs

/-- The DSN has a percent sign exactly when a part of it has one or needs one. -/
theorem percent_notMem_resolvedDatabaseUrl (s : Settings) :
    '%' ∉ s.resolvedDatabaseUrl.toList ↔ s.PercentFree := by
  rw [Settings.resolvedDatabaseUrl, Settings.PercentFree]
  split_ifs with hurl hcomp
  · exact Iff.rfl
  · have hport : '%' ∉ (toString s.dbPort).toList := by
      intro h
      rcases mem_toString_int h with h | h
      · exact absurd h (by decide)
      · exact absurd h (by decide)
    have hall : (∀ c ∈ s.dbUser.toList ++ s.dbPassword.toList,
        c = ' ' ∨ Urllib.isAlwaysSafe c.toNat) ↔
        '%' ∉ (Settings.quotePlus s.dbUser).toList ∧
          '%' ∉ (Settings.quotePlus s.dbPassword).toList := by
      rw [percent_notMem_quotePlus, percent_notMem_quotePlus]
      exact List.forall_mem_append
    have hpre : '%' ∉ "postgresql+asyncpg://".toList := by decide
    have hcolon : '%' ∉ ":".toList := by decide
    have hat : '%' ∉ "@".toList := by decide
    have hslash : '%' ∉ "/".toList := by decide
    rw [hall]
    -- the fixed parts of the DSN stay closed while the others are split off
    generalize "postgresql+asyncpg://" = scheme at hpre ⊢
    generalize ":" = colon at hcolon ⊢
    generalize "@" = amp at hat ⊢
    generalize "/" = slash at hslash ⊢
    simp only [String.toList_append, List.mem_append, not_or]
    constructor
    · rintro ⟨⟨⟨⟨⟨⟨⟨⟨⟨_, huser⟩, _⟩, hpw⟩, _⟩, hhost⟩, _⟩, _⟩, _⟩, hname⟩
      exact ⟨⟨huser, hpw⟩, hhost, hname⟩
    · rintro ⟨⟨huser, hpw⟩, hhost, hname⟩
      exact ⟨⟨⟨⟨⟨⟨⟨⟨⟨hpre, huser⟩, hcolon⟩, hpw⟩, hat⟩, hhost⟩, hcolon⟩, hport⟩, hslash⟩, hname⟩
  · simp only [iff_true]
    decide

theorem mem_alembicSection {here url name : String} {w : String}
    (h : (name, w) ∈ alembicSection here url) : w = "alembic" ∨ w = "." ∨ w = url ∨ w = here := by
  simp only [alembicSection, List.mem_cons, Prod.mk.injEq, List.not_mem_nil, or_false] at h
  tauto

/-- In a directory without a percent sign, the DSN is the only option with one. -/
theorem alembicLookup_percent {here url : String} (hhere : '%' ∉ here.toList) {name w : List Char}
    (h : alembicLookup here url name = some w) (hw : '%' ∈ w) : w = url.toList := by
  obtain ⟨v, hv, rfl⟩ := Option.map_eq_some_iff.mp h
  obtain ⟨l₁, l₂, hmem, _⟩ := List.lookup_eq_some_iff.mp hv
  have hin : (String.ofList (name.map Char.toLower), v) ∈ alembicSection here url := by
    rw [hmem]
    simp
  rcases mem_alembicSection hin with rfl | rfl | rfl | rfl
  · exact absurd hw (by decide)
  · exact absurd hw (by decide)
  · rfl
  · exact absurd hw hhere

theorem readOption_of_notMem {here url : String} {option : String × String}
    (h : '%' ∉ option.2.toList) : readOption here url option = .ok option := by
  have hread : readValue (alembicLookup here url) maxDepth option.2.toList =
      some option.2.toList := readValue_of_notMem _ h 9
  simp only [readOption, hread, String.ofList_toList]

theorem readOptions_of_notMem {here url : String} {options : List (String × String)}
    (h : ∀ o ∈ options, '%' ∉ o.2.toList) : readOptions here url options = .ok options := by
  induction options with
  | nil => rfl
  | cons o options ih =>
    rw [readOptions, readOption_of_notMem (h o (by simp)), ih fun o' ho => h o' (by simp [ho])]

/-- What reading a section makes of one of its options. -/
theorem readOptions_lookup {here url key v : String} {options out : List (String × String)}
    (h : readOptions here url options = .ok out) (hv : options.lookup key = some v) :
    ∃ value, readValue (alembicLookup here url) maxDepth v.toList = some value ∧
      out.lookup key = some (String.ofList value) := by
  induction options generalizing out with
  | nil => simp at hv
  | cons o options ih =>
    obtain ⟨k, w⟩ := o
    cases hr : readValue (alembicLookup here url) maxDepth w.toList with
    | none => simp [readOptions, readOption, hr] at h
    | some value =>
      cases hrest : readOptions here url options with
      | error e => simp [readOptions, readOption, hr, hrest] at h
      | ok os =>
        simp only [readOptions, readOption, hr, hrest, Except.ok.injEq] at h
        subst h
        by_cases hk : key = k
        · subst hk
          obtain rfl : w = v := by simpa using hv
          exact ⟨value, hr, by simp⟩
        · have hne : (key == k) = false := by simpa using hk
          rw [List.lookup_cons, hne] at hv ⊢
          exact ih hrest hv

theorem lookup_alembicSection (here url : String) :
    (alembicSection here url).lookup "sqlalchemy.url" = some url := by
  simp [alembicSection, List.lookup_cons]

theorem migrationUrl_of_percentFree {here : String} (hhere : '%' ∉ here.toList) {s : Settings}
    (h : s.PercentFree) : migrationUrl here s = .ok s.resolvedDatabaseUrl := by
  rw [← percent_notMem_resolvedDatabaseUrl] at h
  generalize hu : s.resolvedDatabaseUrl = url at h
  have hall : ∀ o ∈ alembicSection here url, '%' ∉ o.2.toList := by
    rintro ⟨name, w⟩ ho
    rcases mem_alembicSection ho with rfl | rfl | rfl | rfl
    · exact show '%' ∉ "alembic".toList by decide
    · exact show '%' ∉ ".".toList by decide
    · exact h
    · exact hhere
  rw [migrationUrl]
  rw [hu, if_pos (beforeSet_of_notMem h), getSection, readOptions_of_notMem hall]
  simp [lookup_alembicSection]

theorem percentFree_of_migrationUrl {here : String} (hhere : '%' ∉ here.toList) {s : Settings}
    (h : migrationUrl here s = .ok s.resolvedDatabaseUrl) : s.PercentFree := by
  rw [← percent_notMem_resolvedDatabaseUrl]
  generalize hu : s.resolvedDatabaseUrl = url at h
  intro hper
  rw [migrationUrl] at h
  rw [hu] at h
  split_ifs at h
  cases hs : getSection here url with
  | error e => simp [hs] at h
  | ok options =>
    obtain ⟨value, hread, hlookup⟩ := readOptions_lookup hs (lookup_alembicSection here url)
    simp only [hs, hlookup, Option.getD_some, Except.ok.injEq] at h
    have hself : readValue (alembicLookup here url) maxDepth url.toList = some url.toList := by
      rw [hread, ← h, String.toList_ofList]
    exact readValue_ne_self hper (fun _ _ hl hw => alembicLookup_percent hhere hl hw) _ hself

/-- The migration connects with the DSN of the application exactly when that DSN
has no percent sign: `set_main_option` refuses a lone one, and the reading turns
every other into something else. -/
theorem migrationUrl_eq_ok_iff (here : String) (hhere : '%' ∉ here.toList) (s : Settings) :
    migrationUrl here s = .ok s.resolvedDatabaseUrl ↔ s.PercentFree :=
  ⟨percentFree_of_migrationUrl hhere, migrationUrl_of_percentFree hhere⟩

def hexPasswordSettings : Settings :=
  { dbHost := "db", dbUser := "app", dbPassword := "5e1f", dbName := "telemetry" }

def base64PasswordSettings : Settings := { hexPasswordSettings with dbPassword := "q/Z=" }

/-- In the image `alembic.ini` lies in `/app`. -/
theorem migrationUrl_hexPassword :
    migrationUrl "/app" hexPasswordSettings = .ok hexPasswordSettings.resolvedDatabaseUrl ↔
      hexPasswordSettings.PercentFree :=
  migrationUrl_eq_ok_iff "/app" (by decide) hexPasswordSettings

/-- A base64 password with `/` is percent-encoded and then refused. -/
theorem migrationUrl_base64Password :
    migrationUrl "/app" base64PasswordSettings = .error .invalidSyntax ∧
      migrationUrl "/app" base64PasswordSettings ≠
        .ok base64PasswordSettings.resolvedDatabaseUrl := by
  constructor
  · decide
  · decide

end TelemetryApi
