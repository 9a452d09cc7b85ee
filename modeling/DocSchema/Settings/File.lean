/-
  DocSchema/Settings/File.lean
  ============================
  **Reading settings from a file.**
-/
import DocSchema.Program
import DocSchema.Settings

namespace DocSchema

open DocSchema.Json

/-- Why settings could not be read. -/
inductive SettingsError where
  | unreadable (p : Path) (e : HostError)
  | invalidJson (p : Path) (e : ReadError)

namespace SettingsError

/-- The wording of a refusal. -/
def message : SettingsError → String
  | .unreadable p e => s!"cannot read settings {p.text}: {e.message}"
  | .invalidJson p e => s!"invalid settings {p.text}: {e.message}"

def exitCode : SettingsError → Nat
  | .unreadable _ _ => 3
  | .invalidJson _ _ => 2

end SettingsError

def loadSettings {σ : Type} (p : Path) : Program σ (Except SettingsError Settings) := do
  match ← Program.request (.readText p) with
  | .error e => return .error (.unreadable p e)
  | .ok text => return (Settings.read text).mapError (.invalidJson p)

end DocSchema
