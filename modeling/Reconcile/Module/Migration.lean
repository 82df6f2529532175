import Reconcile.Module.Error
import Reconcile.Text.Blank

/-!
# Migrations

A migration is a text with two sections of SQL, one that installs a module and one that removes it.
A section begins after a line that consists of its marker, in letters of any case and with any
blanks around it, and ends before the next marker. Each of the two has to be there once and must
hold more than blanks; what stands before the first marker is ignored.
-/

namespace Reconcile

/-- A line of a text. -/
abbrev Line := List Char

/-- The sections of a migration. -/
structure Migration where
  path : String
  install : String
  remove : String
deriving DecidableEq, Repr

/-- The section that a line begins, if it is a marker. -/
def Section.ofLine? (line : Line) : Option Section :=
  let text := Text.trimBy Text.isBlank line
  if Text.sameIgnoringCase text Section.install.marker.toList then some .install
  else if Text.sameIgnoringCase text Section.remove.marker.toList then some .remove
  else none

/-- The sections that have begun, with their lines so far. -/
structure Sections where
  install : Option (List Line)
  remove : Option (List Line)
  /-- The section that the next line belongs to. -/
  current : Option Section
deriving DecidableEq, Repr

namespace Sections

/-- No section has begun. -/
def empty : Sections := ⟨none, none, none⟩

/-- The lines of a section, if it has begun. -/
def lines? (s : Sections) : Section → Option (List Line)
  | .install => s.install
  | .remove => s.remove

/-- Sets the lines of a section. -/
def setLines (s : Sections) (part : Section) (lines : List Line) : Sections :=
  match part with
  | .install => { s with install := some lines }
  | .remove => { s with remove := some lines }

/-- The sections after one more line. -/
def addLine (s : Sections) (line : Line) : Except MigrationFault Sections :=
  match Section.ofLine? line with
  | some part =>
    if (s.lines? part).isSome then .error (.repeatedMarker part)
    else .ok { s.setLines part [] with current := some part }
  | none =>
    match s.current with
    | some part => .ok (s.setLines part ((s.lines? part).getD [] ++ [line]))
    | none => .ok s

/-- The sections in the lines of a text. -/
def ofLines (lines : List Line) : Except MigrationFault Sections :=
  lines.foldlM addLine empty

/-- The lines as one text, without the blanks at its ends. -/
def joined (lines : List Line) : String :=
  String.ofList (Text.trimBy Text.isBlank (lines.flatMap (· ++ ['\n'])))

/-- The text of a section, which has to be there and not to be empty. -/
def textOf (s : Sections) (part : Section) : Except MigrationFault String :=
  match (s.lines? part).map joined with
  | some text => if text = "" then .error (.noSection part) else .ok text
  | none => .error (.noSection part)

end Sections

namespace Migration

/-- The migration in the lines of a text. -/
def ofLines (path : String) (lines : List Line) : Except MigrationFault Migration := do
  let sections ← Sections.ofLines lines
  return ⟨path, ← sections.textOf .install, ← sections.textOf .remove⟩

/-- The migration of a module in a text. -/
def parse (module path text : String) : Except ModuleError Migration :=
  (ofLines path (Text.lines text.toList)).mapError (.malformedMigration module path)

/-- The migration of a module, of which there has to be exactly one among the given paths and
texts. -/
def ofCandidates (module dir : String) : List (String × String) → Except ModuleError Migration
  | [] => .error (.migrationNotFound module dir)
  | [(path, text)] => parse module path text
  | candidates => .error (.ambiguousMigration module (candidates.map Prod.fst))

end Migration

/-- SQL that is run around a migration. -/
structure Hooks where
  beforeInstall : Option String
  afterInstall : Option String
  beforeUninstall : Option String
  afterUninstall : Option String
deriving DecidableEq, Repr

namespace Hooks

/-- No hooks. -/
def empty : Hooks := ⟨none, none, none, none⟩

instance : Inhabited Hooks := ⟨empty⟩

/-- The names of the files for hooks. -/
def fileNames : List String :=
  ["before_install.sql", "after_install.sql", "before_uninstall.sql", "after_uninstall.sql"]

/-- Sets the hook that a file of the given name is for. Files of other names set nothing. -/
def set (h : Hooks) (fileName sql : String) : Hooks :=
  match fileName with
  | "before_install.sql" => { h with beforeInstall := some sql }
  | "after_install.sql" => { h with afterInstall := some sql }
  | "before_uninstall.sql" => { h with beforeUninstall := some sql }
  | "after_uninstall.sql" => { h with afterUninstall := some sql }
  | _ => h

end Hooks

end Reconcile
