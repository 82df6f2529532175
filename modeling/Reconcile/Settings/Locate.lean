import Reconcile.Settings.Document

/-!
# Finding the settings file

The settings file is the first that exists of: the file that the environment names, a file in the
working directory, a file in the directory `.rowplane` there, and a file in the user's
configuration directory. Where there is none, the default settings apply.

A relative path of the modules directory in a settings file starts at the directory of that file.
-/

namespace Reconcile

namespace Settings

/-- What determines where settings are looked for. -/
structure Surroundings where
  files : FileTree
  /-- The absolute path of the working directory. -/
  workingDirectory : String
  /-- The user's configuration directory, if there is one. -/
  configDirectory : Option String
  /-- The settings file that the environment names. -/
  named : Option String

/-- The names of settings files, in the order in which they are tried. -/
def fileNames : List String := ["rowplane.kdl", ".rowplane.kdl"]

/-- The settings file in a directory, if there is one. -/
def findIn (files : FileTree) (directory : String) : Option String :=
  (fileNames.map (Path.join directory)).find? files.has

/-- The path of the settings file, if there is one. -/
def findFile (w : Surroundings) : Option String :=
  let named := w.named.filter w.files.has
  let hidden := Path.join w.workingDirectory ".rowplane"
  let inHidden := if w.files.isDirectory hidden then findIn w.files hidden else none
  let global := w.configDirectory.map fun directory =>
    Path.join (Path.join directory "rowplane") "rowplane.kdl"
  named <|> findIn w.files w.workingDirectory <|> inHidden <|> global.filter w.files.has

/-- The settings in a file. -/
def ofFile (files : FileTree) (path : String) : Except SettingsError Settings := do
  let text ← (files.readText path).mapError .file
  let settings ← Settings.parse text
  match Path.parent? path with
  | some directory =>
    if Path.isRelative settings.modulesDir then
      return { settings with modulesDir := Path.join directory settings.modulesDir }
    else return settings
  | none => return settings

/-- The settings in the file that is found, or the default settings. -/
def load (w : Surroundings) : Except SettingsError Settings :=
  match findFile w with
  | some path => ofFile w.files path
  | none => .ok .default

end Settings

end Reconcile
