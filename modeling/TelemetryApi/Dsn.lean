import TelemetryApi.Config
import TelemetryApi.Foundations.DatabaseUrl

/-!
# The assembled DSN

`resolved_database_url` assembles a DSN from the components, and `make_url`
takes it apart again when the engine is built.
-/

namespace TelemetryApi

open DatabaseUrl

/-- A character that separates the parts of a URL. -/
def isUrlDelimiter (c : Char) : Bool := c ∈ [':', '/', '?', '#', '[', ']', '@']

def Undelimited (s : String) : Prop := ∀ c ∈ s.toList, isUrlDelimiter c = false

instance (s : String) : Decidable (Undelimited s) :=
  decidable_of_iff (s.toList.all fun c => !isUrlDelimiter c) (by simp [Undelimited])

theorem Undelimited.notMem {s : String} (h : Undelimited s) {c : Char}
    (hc : isUrlDelimiter c = true) : c ∉ s.toList := by
  intro hmem
  rw [h c hmem] at hc
  exact Bool.false_ne_true hc

namespace Settings

/-- The parts the engine is meant to connect with. -/
def componentUrl (s : Settings) : DatabaseUrl where
  drivername := "postgresql+asyncpg"
  username := some s.dbUser
  password := some s.dbPassword
  host := some s.dbHost
  port := some s.dbPort
  database := some s.dbName
  query := none

/-- The DSN is assembled from the components, not given as a whole. -/
@[mk_iff] structure FromComponents (s : Settings) : Prop where
  noUrl : s.databaseUrl = ""
  user : s.dbUser ≠ ""
  host : s.dbHost ≠ ""
  name : s.dbName ≠ ""

instance (s : Settings) : Decidable s.FromComponents :=
  decidable_of_iff _ (fromComponents_iff s).symm

theorem FromComponents.resolvedDatabaseUrl_eq {s : Settings} (h : s.FromComponents) :
    s.resolvedDatabaseUrl = "postgresql+asyncpg://" ++ quotePlus s.dbUser ++ ":" ++
      quotePlus s.dbPassword ++ "@" ++ s.dbHost ++ ":" ++ toString s.dbPort ++ "/" ++
      s.dbName := by
  have hc : s.hasComponents = true := by simp [hasComponents, h.user, h.host, h.name]
  rw [resolvedDatabaseUrl, if_neg (by simp [h.noUrl]), if_pos hc]

theorem notMem_quotePlus {c : Char} (h : c ≠ '+' ∧ c ≠ '%' ∧ Urllib.isAlwaysSafe c.toNat = false)
    (cs : List Char) : c ∉ Urllib.quotePlus cs := by
  intro hc
  rcases Urllib.mem_quotePlus hc with h' | h' | h'
  · exact h.1 h'
  · exact h.2.1 h'
  · exact absurd h' (by simp [h.2.2])

/-- What `make_url` makes of the assembled DSN: every part but the encoded two
comes back, and those with `+` for each space. -/
theorem makeUrl_resolvedDatabaseUrl {s : Settings} (h : s.FromComponents)
    (hhost : Undelimited s.dbHost) (hname : Undelimited s.dbName) :
    makeUrl s.resolvedDatabaseUrl = some
      { s.componentUrl with
        username := some (String.ofList (s.dbUser.toList.map Urllib.spaceToPlus))
        password := some (String.ofList (s.dbPassword.toList.map Urllib.spaceToPlus)) } := by
  have hparts : s.resolvedDatabaseUrl.toList = "postgresql+asyncpg".toList ++
      ':' :: '/' :: '/' :: (Urllib.quotePlus s.dbUser.toList ++
        ':' :: (Urllib.quotePlus s.dbPassword.toList ++ '@' ::
          (s.dbHost.toList ++ ':' :: ((toString s.dbPort).toList ++ '/' :: s.dbName.toList)))) := by
    rw [h.resolvedDatabaseUrl_eq]
    simp [quotePlus]
  have hne : s.dbHost.toList ≠ [] := by
    simpa using h.host
  rw [makeUrl_assembled (by decide)
    ⟨notMem_quotePlus (by decide) _, notMem_quotePlus (by decide) _⟩
    (notMem_quotePlus (by decide) _) hne
    ⟨hhost.notMem rfl, hhost.notMem rfl, hhost.notMem rfl, hhost.notMem rfl⟩
    (hname.notMem rfl) hparts]
  simp [componentUrl, unquoteString, Urllib.unquote_quotePlus]

theorem map_spaceToPlus_eq_iff (s : String) :
    String.ofList (s.toList.map Urllib.spaceToPlus) = s ↔ ' ' ∉ s.toList := by
  rw [← Urllib.unquote_quotePlus_eq_iff, Urllib.unquote_quotePlus, ← String.toList_inj,
    String.toList_ofList]

/-- The assembled DSN yields its components back exactly when neither the user
nor the password has a space: `quote_plus` writes a space as `+`, and nothing
turns that `+` into a space again. -/
theorem makeUrl_resolvedDatabaseUrl_eq_iff (s : Settings) (h : s.FromComponents)
    (hhost : Undelimited s.dbHost) (hname : Undelimited s.dbName) :
    makeUrl s.resolvedDatabaseUrl = some s.componentUrl ↔
      ' ' ∉ s.dbUser.toList ∧ ' ' ∉ s.dbPassword.toList := by
  rw [makeUrl_resolvedDatabaseUrl h hhost hname, ← map_spaceToPlus_eq_iff,
    ← map_spaceToPlus_eq_iff]
  simp [componentUrl]

def plainSettings : Settings :=
  { dbHost := "db", dbUser := "app", dbPassword := "p@:/+%", dbName := "telemetry" }

def spacedSettings : Settings := { plainSettings with dbPassword := "a b" }

theorem makeUrl_resolvedDatabaseUrl_plain :
    makeUrl plainSettings.resolvedDatabaseUrl = some plainSettings.componentUrl ↔
      ' ' ∉ plainSettings.dbUser.toList ∧ ' ' ∉ plainSettings.dbPassword.toList :=
  makeUrl_resolvedDatabaseUrl_eq_iff plainSettings (by decide) (by decide) (by decide)

theorem makeUrl_resolvedDatabaseUrl_spaced :
    spacedSettings.FromComponents ∧ Undelimited spacedSettings.dbHost ∧
      Undelimited spacedSettings.dbName ∧
      makeUrl spacedSettings.resolvedDatabaseUrl ≠ some spacedSettings.componentUrl := by
  decide

end Settings

end TelemetryApi
