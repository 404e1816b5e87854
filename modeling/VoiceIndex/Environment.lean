import VoiceIndex.Error
import VoiceIndex.Path

/-!
# The surroundings of a user

Where a user's settings, data and voice commands are looked for.
-/

namespace VoiceIndex

/-- The folders of a user. -/
structure Environment where
  /-- The home folder. -/
  home? : Option Path := none
  /-- The folder for settings, where it is not the usual one in the home folder. -/
  configHome? : Option Path := none
  /-- The folder for data, where it is not the usual one in the home folder. -/
  dataHome? : Option Path := none
  deriving Inhabited

namespace Environment

/-- The name of the program's own folder among settings and data. -/
def ownFolder : String := "talon-search"

/-- The folder for settings. -/
def configFolder? (env : Environment) : Option Path :=
  env.configHome? <|> env.home?.map (·.join ".config")

/-- The folder for data. -/
def dataFolder? (env : Environment) : Option Path :=
  env.dataHome? <|> env.home?.map fun home => (home.join ".local").join "share"

/-- The path of the settings file. -/
def settingsPath (env : Environment) : Except Error Path :=
  match env.configFolder? with
  | some folder => .ok ((folder.join ownFolder).join "settings.json")
  | none => .error (.config .noConfigFolder)

/-- The path of the index, unless the settings give another. -/
def indexPath (env : Environment) : Except Error Path :=
  match env.dataFolder? with
  | some folder => .ok ((folder.join ownFolder).join "talon-commands.json")
  | none => .error (.config .noDataFolder)

/-- The places of the folder of voice commands, the most likely first. -/
def userFolders (env : Environment) : List Path :=
  match env.home? with
  | some home => [(home.join ".talon").join "user", (home.join "talon").join "user"]
  | none => []

end Environment

end VoiceIndex
