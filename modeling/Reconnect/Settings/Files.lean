import Reconnect.Folder
import Reconnect.Settings.Reading
import Reconnect.Settings.Writing

/-!
# Files of settings

The file of settings is looked for in the working folder, then in its `config` folder, then, as a
hidden file, in the home folder.
-/

namespace Reconnect

/-- The paths at which a file of settings may stand, in order of preference. -/
def settingsPaths (home : String) : List String :=
  let home := if home.endsWith "/" then home else home ++ "/"
  [settingsFileName, "config/" ++ settingsFileName, home ++ "." ++ settingsFileName]

/-- The path of the file of settings. -/
def Folder.settingsPath (f : Folder) (home : String) : Except SettingsError String :=
  match (settingsPaths home).find? f.has with
  | some path => .ok path
  | none => .error .notFound

/-- The settings of the file at a path. -/
def Folder.settingsAt (f : Folder) (path : String) : Except SettingsError Settings :=
  match (f.read? path).bind Text.ofUtf8? with
  | some text => Settings.read text
  | none => .error (.unreadable path)

/-- The settings of the file of settings. -/
def Folder.settings (f : Folder) (home : String) : Except SettingsError Settings := do
  f.settingsAt (← f.settingsPath home)

/-- The settings of the file of settings, the default ones if there is no such file. -/
def Folder.settingsOrDefault (f : Folder) (home : String) : Except SettingsError Settings :=
  match f.settingsPath home with
  | .ok path => f.settingsAt path
  | .error _ => .ok {}

/-- What is told about a file of default settings at a path. -/
def settingsNotice (path : String) : String :=
  "\nConfiguration file created at: " ++ path ++ "\n"
    ++ "\nThis file contains default settings for local services.\n"
    ++ "\nKey settings to review:\n"
    ++ "  - rabbitmq.host / rabbitmq.uri - broker location\n"
    ++ "  - redis.lock.ttl_ms - lifetime of distributed locks\n"
    ++ "  - mongodb.app_name - name reported to the document store\n"

/-- Writes the default settings to a path. The folders on the way to it are made first and stay
even if the file cannot be written. -/
def Folder.createSettings (f : Folder) (path : String) : Folder × Except SettingsError String :=
  match f.prepare? path with
  | none => (f, .error (.folderNotCreated (Folder.parent path)))
  | some f =>
    match f.write? path (Text.utf8 ({} : Settings).text) with
    | none => (f, .error (.notWritten path))
    | some f => (f, .ok (settingsNotice path))

end Reconnect
