import Reconcile.Files.Tree
import Reconcile.Kdl.Reader
import Reconcile.Settings.Basic

/-!
# Settings from documents

Every setting has a node or a property of a node of its own, and the last one in a document counts.
Nodes and properties of other names are ignored, so that documents for later versions can be read.

* `Settings.ofDocument` reads a document, `Settings.parse` a text.
* The nodes `platform`, `version` and `modules-dir` (or `modules_dir`) take a text as their first
  argument; `wait` and `retry` take properties, which are numbers.
-/

namespace Reconcile

/-- Why settings cannot be read. -/
inductive SettingsError where
  /-- The text is no document. -/
  | notADocument
  | notAText (key : String)
  /-- The value is no integer from zero to `2 ^ 64 - 1`. -/
  | notACount (key : String) (value : Kdl.Value)
  /-- The integer is greater than `2 ^ 32 - 1`. -/
  | outOfRange (key : String) (value : Nat)
  | notANumber (key : String) (value : Kdl.Value)
  | emptyText (key : String)
  | file (error : FileError)
deriving DecidableEq, Repr

/-- The message of an error about the value of a setting. -/
def SettingsError.invalid (key detail : String) : String :=
  "Invalid value for '" ++ key ++ "': " ++ detail

/-- The message of a settings error. -/
def SettingsError.message : SettingsError → String
  | notADocument => "KDL parse error: Failed to parse KDL document"
  | notAText key => invalid key "expected a string argument"
  | notACount key value =>
    invalid key ("expected a non-negative integer, got " ++ value.shownValue)
  | outOfRange key value =>
    invalid key (toString value ++ " is out of range (max 4294967295)")
  | notANumber key value => invalid key ("expected a number, got " ++ value.shownValue)
  | emptyText key => invalid key "must not be empty"
  | file error => "IO error: " ++ error.message

/-! ### Values -/

/-- The text that is the first argument of a node. -/
def Kdl.Node.settingText (node : Kdl.Node) (key : String) : Except SettingsError String :=
  match node.arguments.head? with
  | some (.str text) => .ok text
  | _ => .error (.notAText key)

/-- An integer of 64 bits without sign. -/
def Kdl.Value.settingCount (value : Kdl.Value) (key : String) : Except SettingsError Nat :=
  match value with
  | .int n => if 0 ≤ n ∧ n < UInt64.size then .ok n.toNat else .error (.notACount key value)
  | _ => .error (.notACount key value)

/-- An integer of 32 bits without sign. -/
def Kdl.Value.settingSmallCount (value : Kdl.Value) (key : String) : Except SettingsError Nat :=
  (value.settingCount key).bind fun n =>
    if n < UInt32.size then .ok n else .error (.outOfRange key n)

/-- A number, whether or not it is written as an integer. -/
def Kdl.Value.settingNumber (value : Kdl.Value) (key : String) : Except SettingsError Float :=
  match value with
  | .float x => .ok x
  | .int n => .ok (Float.ofInt n)
  | _ => .error (.notANumber key value)

/-! ### Nodes -/

/-- Delays as changed by one property. -/
def Backoff.withProperty (b : Backoff) (property : String × Kdl.Value) :
    Except SettingsError Backoff :=
  let (key, value) := property
  match key with
  | "initial-delay-ms" =>
    (value.settingCount key).map fun n => { b with initialDelay := .ofMillis n }
  | "max-delay-ms" => (value.settingCount key).map fun n => { b with maxDelay := .ofMillis n }
  | "multiplier" => (value.settingNumber key).map fun x => { b with multiplier := x }
  | _ => .ok b

/-- Waiting as changed by one property. -/
def WaitSettings.withProperty (w : WaitSettings) (property : String × Kdl.Value) :
    Except SettingsError WaitSettings :=
  match property with
  | ("max-wait-secs", value) =>
    (value.settingCount "max-wait-secs").map fun n => { w with maxWait := .ofSecs n }
  | _ => (w.backoff.withProperty property).map fun b => { w with backoff := b }

/-- Retrying as changed by one property. -/
def RetrySettings.withProperty (r : RetrySettings) (property : String × Kdl.Value) :
    Except SettingsError RetrySettings :=
  match property with
  | ("max-attempts", value) =>
    (value.settingSmallCount "max-attempts").map fun n => { r with maxAttempts := n }
  | _ => (r.backoff.withProperty property).map fun b => { r with backoff := b }

/-- Settings as changed by one node. -/
def Settings.withNode (s : Settings) (node : Kdl.Node) : Except SettingsError Settings :=
  match node.name with
  | "platform" => (node.settingText "platform").map fun text => { s with platform := text }
  | "version" => (node.settingText "version").map fun text => { s with version := text }
  | "modules-dir" | "modules_dir" =>
    (node.settingText "modules-dir").map fun text => { s with modulesDir := text }
  | "wait" =>
    (node.properties.foldlM WaitSettings.withProperty s.wait).map fun w => { s with wait := w }
  | "retry" =>
    (node.properties.foldlM RetrySettings.withProperty s.retry).map fun r => { s with retry := r }
  | _ => .ok s

/-! ### Documents -/

/-- The settings of a document. -/
def Settings.ofDocument (document : Kdl.Document) : Except SettingsError Settings :=
  (document.foldlM Settings.withNode .default).bind fun s =>
    if s.platform = "" then .error (.emptyText "platform") else .ok s

/-- The settings of a text. -/
def Settings.parse (text : String) : Except SettingsError Settings :=
  match Kdl.Document.parse? text with
  | none => .error .notADocument
  | some document => Settings.ofDocument document

end Reconcile
