import Mathlib.Logic.Function.Basic
import Reconcile.Proofs.Except
import Reconcile.Settings.Document

/-!
# Settings as a table

Settings are a table of values, one for each `Setting`, and a document is a list of occurrences,
each of which gives a value to one setting (`Kdl.Document.occurrences`). Reading a document is
taking in its occurrences, one after the other (`Settings.ofDocument_eq`).

Which node and which property stands for which setting is said here and nowhere else. The nodes
`wait` and `retry` have properties in common, which stand for settings of their own on each node.
-/

namespace Reconcile

/-! ### The table -/

/-- A node whose properties are settings. -/
inductive Setting.Group where
  | wait
  | retry
deriving DecidableEq

/-- What can be configured. -/
inductive Setting where
  | platform
  | version
  | modulesDir
  | maxWait
  | maxAttempts
  | initialDelay (group : Setting.Group)
  | maxDelay (group : Setting.Group)
  | multiplier (group : Setting.Group)
deriving DecidableEq

namespace Setting

/-- The values of a setting. -/
def Value : Setting → Type
  | platform | version | modulesDir => String
  | maxWait | initialDelay _ | maxDelay _ => Duration
  | maxAttempts => Nat
  | multiplier _ => Float

end Setting

namespace Settings

/-- The delays of a group. -/
def backoff (s : Settings) : Setting.Group → Backoff
  | .wait => s.wait.backoff
  | .retry => s.retry.backoff

/-- Settings with other delays in a group. -/
def setBackoff (s : Settings) : Setting.Group → Backoff → Settings
  | .wait, b => { s with wait := { s.wait with backoff := b } }
  | .retry, b => { s with retry := { s.retry with backoff := b } }

/-- The value of a setting. -/
def get (s : Settings) : (k : Setting) → k.Value
  | .platform => s.platform
  | .version => s.version
  | .modulesDir => s.modulesDir
  | .maxWait => s.wait.maxWait
  | .maxAttempts => s.retry.maxAttempts
  | .initialDelay group => (s.backoff group).initialDelay
  | .maxDelay group => (s.backoff group).maxDelay
  | .multiplier group => (s.backoff group).multiplier

/-- The settings of a table. -/
def ofTable (t : (k : Setting) → k.Value) : Settings :=
  let backoff (group : Setting.Group) : Backoff :=
    ⟨t (.initialDelay group), t (.maxDelay group), t (.multiplier group)⟩
  { platform := t .platform
    version := t .version
    modulesDir := t .modulesDir
    wait := ⟨t .maxWait, backoff .wait⟩
    retry := ⟨t .maxAttempts, backoff .retry⟩ }

theorem get_ofTable (t : (k : Setting) → k.Value) (k : Setting) : (ofTable t).get k = t k := by
  cases k with
  | initialDelay group => cases group <;> rfl
  | maxDelay group => cases group <;> rfl
  | multiplier group => cases group <;> rfl
  | _ => rfl

/-- Settings in which one setting has another value. -/
def set (s : Settings) (k : Setting) (v : k.Value) : Settings :=
  ofTable (Function.update s.get k v)

theorem get_set_self (s : Settings) (k : Setting) (v : k.Value) : (s.set k v).get k = v := by
  rw [set, get_ofTable, Function.update_self]

theorem get_set_of_ne (s : Settings) {k k' : Setting} (v : k.Value) (h : k' ≠ k) :
    (s.set k v).get k' = s.get k' := by
  rw [set, get_ofTable, Function.update_of_ne h]

end Settings

/-! ### Values -/

namespace Kdl.Value

/-- An integer from zero up to, but without, a limit. -/
def below? (limit : Nat) : Kdl.Value → Option Nat
  | .int n => if 0 ≤ n ∧ n < limit then some n.toNat else none
  | _ => none

/-- A number, whether or not it is written as an integer. -/
def number? : Kdl.Value → Option Float
  | .float x => some x
  | .int n => some (Float.ofInt n)
  | _ => none

end Kdl.Value

namespace Setting

/-- The value that a setting takes from a document. -/
def read? : (k : Setting) → Kdl.Value → Option k.Value
  | platform, v => v.text?
  | version, v => v.text?
  | modulesDir, v => v.text?
  | maxWait, v => (v.below? UInt64.size).map Duration.ofSecs
  | maxAttempts, v => v.below? UInt32.size
  | initialDelay _, v => (v.below? UInt64.size).map Duration.ofMillis
  | maxDelay _, v => (v.below? UInt64.size).map Duration.ofMillis
  | multiplier _, v => v.number?

/-- What is wrong with a value that a setting does not take. -/
def fault : Setting → Kdl.Value → SettingsError
  | platform, _ => .notAText "platform"
  | version, _ => .notAText "version"
  | modulesDir, _ => .notAText "modules-dir"
  | maxWait, v => .notACount "max-wait-secs" v
  | maxAttempts, v =>
    match v.below? UInt64.size with
    | some n => .outOfRange "max-attempts" n
    | none => .notACount "max-attempts" v
  | initialDelay _, v => .notACount "initial-delay-ms" v
  | maxDelay _, v => .notACount "max-delay-ms" v
  | multiplier _, v => .notANumber "multiplier" v

end Setting

/-! ### Occurrences -/

/-- A place of a document that gives a value to a setting. -/
structure Occurrence where
  setting : Setting
  value : Kdl.Value
deriving DecidableEq

namespace Occurrence

/-- The occurrence can be taken in. -/
def Fits (o : Occurrence) : Prop :=
  (o.setting.read? o.value).isSome

/-- Settings with the value of an occurrence. -/
def assign (s : Settings) (o : Occurrence) : Except SettingsError Settings :=
  match o.setting.read? o.value with
  | some v => .ok (s.set o.setting v)
  | none => .error (o.setting.fault o.value)

end Occurrence

namespace Setting

/-- The name of the node of a group. -/
def Group.name : Group → String
  | wait => "wait"
  | retry => "retry"

/-- The setting that a property stands for on the node of either group. -/
def ofSharedProperty? (group : Group) (name : String) : Option Setting :=
  if name = "initial-delay-ms" then some (initialDelay group)
  else if name = "max-delay-ms" then some (maxDelay group)
  else if name = "multiplier" then some (multiplier group)
  else none

/-- The setting that a property stands for on the node of a group. -/
def ofProperty? (group : Group) (name : String) : Option Setting :=
  match group with
  | .wait => if name = "max-wait-secs" then some maxWait else ofSharedProperty? .wait name
  | .retry => if name = "max-attempts" then some maxAttempts else ofSharedProperty? .retry name

/-- The setting that the first argument of a node stands for. -/
def ofNode? (name : String) : Option Setting :=
  if name = "platform" then some platform
  else if name = "version" then some version
  else if name = "modules-dir" ∨ name = "modules_dir" then some modulesDir
  else none

end Setting

namespace Kdl.Node

/-- The first argument of a node. A node without arguments has the value null for it, which is not
the value of any setting. -/
def firstArgument (node : Node) : Kdl.Value :=
  node.arguments.head?.getD .null

/-- The occurrences on the node of a group. -/
def propertyOccurrences (group : Setting.Group) (node : Node) : List Occurrence :=
  node.properties.filterMap fun property =>
    (Setting.ofProperty? group property.1).map fun k => ⟨k, property.2⟩

/-- The occurrences on a node. -/
def occurrences (node : Node) : List Occurrence :=
  if node.name = Setting.Group.wait.name then node.propertyOccurrences .wait
  else if node.name = Setting.Group.retry.name then node.propertyOccurrences .retry
  else (Setting.ofNode? node.name).toList.map fun k => ⟨k, node.firstArgument⟩

theorem occurrences_of_group {node : Node} (group : Setting.Group) (h : node.name = group.name) :
    node.occurrences = node.propertyOccurrences group := by
  unfold occurrences
  cases group with
  | wait => rw [if_pos h]
  | retry => rw [if_neg (by rw [h]; decide), if_pos h]

theorem occurrences_of_not_group {node : Node}
    (h : ∀ group : Setting.Group, node.name ≠ group.name) :
    node.occurrences = (Setting.ofNode? node.name).toList.map fun k => ⟨k, node.firstArgument⟩ := by
  unfold occurrences
  rw [if_neg (h .wait), if_neg (h .retry)]

theorem occurrences_of_text {node : Node} {k : Setting} (h : Setting.ofNode? node.name = some k) :
    node.occurrences = [⟨k, node.firstArgument⟩] := by
  rw [occurrences_of_not_group, h]
  · rfl
  · intro group hname
    have hnone : Setting.ofNode? group.name = none := by cases group <;> rfl
    rw [hname, hnone] at h
    cases h

end Kdl.Node

/-- The occurrences in a document, in their order. -/
def Kdl.Document.occurrences (document : Kdl.Document) : List Occurrence :=
  document.flatMap Kdl.Node.occurrences

/-! ### Reading is taking in occurrences -/

open Occurrence

theorem Kdl.Value.settingCount_eq (v : Kdl.Value) (key : String) :
    v.settingCount key =
      match v.below? UInt64.size with
      | some n => .ok n
      | none => .error (.notACount key v) := by
  cases v with
  | int n =>
    unfold settingCount below?
    dsimp only
    split_ifs <;> rfl
  | _ => rfl

theorem Kdl.Value.settingSmallCount_eq (v : Kdl.Value) :
    v.settingSmallCount "max-attempts" =
      match v.below? UInt32.size with
      | some n => .ok n
      | none => .error (Setting.maxAttempts.fault v) := by
  have hlt : UInt32.size < UInt64.size := by decide
  rw [settingSmallCount, settingCount_eq]
  unfold below? Setting.fault below?
  cases v with
  | int n =>
    dsimp only
    split_ifs with hwide hsmall hsmall
    · change ite _ _ _ = _
      rw [if_pos (by omega)]
    · change ite _ _ _ = _
      rw [if_neg (by omega)]
    · omega
    · rfl
  | _ => rfl

/-- Taking in the occurrence of a setting, if a property stands for one. -/
def assign? (s : Settings) (k? : Option Setting) (v : Kdl.Value) : Except SettingsError Settings :=
  match k? with
  | some k => assign s ⟨k, v⟩
  | none => .ok s

/-- A property that changes delays is taken in as its occurrence. -/
theorem withProperty_backoff (s : Settings) (group : Setting.Group) (key : String)
    (v : Kdl.Value) : ((s.backoff group).withProperty (key, v)).map (s.setBackoff group) =
      assign? s (Setting.ofSharedProperty? group key) v := by
  unfold Backoff.withProperty Setting.ofSharedProperty?
  dsimp only
  split
  next =>
    rw [if_pos rfl, Kdl.Value.settingCount_eq, assign?, assign, Setting.read?]
    cases v.below? UInt64.size <;> cases group <;> rfl
  next =>
    rw [if_neg (by decide), if_pos rfl, Kdl.Value.settingCount_eq, assign?, assign, Setting.read?]
    cases v.below? UInt64.size <;> cases group <;> rfl
  next =>
    rw [if_neg (by decide), if_neg (by decide), if_pos rfl]
    cases v <;> cases group <;> rfl
  next hinitial hmax hmultiplier =>
    rw [if_neg hinitial, if_neg hmax, if_neg hmultiplier]
    cases group <;> rfl

/-- A property of the node `wait` is taken in as its occurrence. -/
theorem withProperty_wait (s : Settings) (key : String) (v : Kdl.Value) :
    (s.wait.withProperty (key, v)).map (fun w => { s with wait := w }) =
      assign? s (Setting.ofProperty? .wait key) v := by
  unfold WaitSettings.withProperty Setting.ofProperty?
  split
  next h =>
    cases h
    dsimp only
    rw [if_pos rfl, Kdl.Value.settingCount_eq, assign?, assign, Setting.read?]
    cases v.below? UInt64.size <;> rfl
  next h =>
    dsimp only
    rw [if_neg fun heq : key = _ => h v (by rw [heq]), ← withProperty_backoff]
    change Except.map _ (Except.map _ (s.wait.backoff.withProperty (key, v))) =
      Except.map _ (s.wait.backoff.withProperty (key, v))
    cases s.wait.backoff.withProperty (key, v) <;> rfl

/-- A property of the node `retry` is taken in as its occurrence. -/
theorem withProperty_retry (s : Settings) (key : String) (v : Kdl.Value) :
    (s.retry.withProperty (key, v)).map (fun r => { s with retry := r }) =
      assign? s (Setting.ofProperty? .retry key) v := by
  unfold RetrySettings.withProperty Setting.ofProperty?
  split
  next h =>
    cases h
    dsimp only
    rw [if_pos rfl, Kdl.Value.settingSmallCount_eq, assign?, assign, Setting.read?]
    cases v.below? UInt32.size <;> rfl
  next h =>
    dsimp only
    rw [if_neg fun heq : key = _ => h v (by rw [heq]), ← withProperty_backoff]
    change Except.map _ (Except.map _ (s.retry.backoff.withProperty (key, v))) =
      Except.map _ (s.retry.backoff.withProperty (key, v))
    cases s.retry.backoff.withProperty (key, v) <;> rfl

theorem foldlM_propertyOccurrences (s : Settings) (group : Setting.Group) (node : Kdl.Node) :
    (node.propertyOccurrences group).foldlM assign s =
      node.properties.foldlM
        (fun s property => assign? s (Setting.ofProperty? group property.1) property.2) s := by
  rw [Kdl.Node.propertyOccurrences, List.foldlM_filterMap]
  congr 1
  funext s property
  cases Setting.ofProperty? group property.1 <;> rfl

theorem Kdl.Node.settingText_eq (node : Kdl.Node) (key : String) :
    node.settingText key =
      match node.firstArgument.text? with
      | some text => .ok text
      | none => .error (.notAText key) := by
  unfold settingText firstArgument
  rcases node.arguments.head? with _ | v
  · rfl
  · cases v <;> rfl

/-- A node that stands for a setting with a text is taken in as its occurrence. -/
theorem settingText_map {node : Kdl.Node} {k : Setting} (hname : Setting.ofNode? node.name = some k)
    {s : Settings} {key : String} {set : String → Settings}
    (hassign : ∀ v : Kdl.Value, assign s ⟨k, v⟩ = match v.text? with
      | some text => .ok (set text)
      | none => .error (.notAText key)) :
    (node.settingText key).map set = node.occurrences.foldlM assign s := by
  have hone : node.occurrences.foldlM assign s = assign s ⟨k, node.firstArgument⟩ := by
    rw [Kdl.Node.occurrences_of_text hname]
    exact bind_pure _
  rw [hone, hassign, Kdl.Node.settingText_eq]
  cases node.firstArgument.text? <;> rfl

/-- A node is taken in as its occurrences. -/
theorem withNode_eq (s : Settings) (node : Kdl.Node) :
    s.withNode node = node.occurrences.foldlM assign s := by
  unfold Settings.withNode
  split
  next hname =>
    exact settingText_map (k := .platform) (by rw [hname]; rfl) fun v => by cases v <;> rfl
  next hname =>
    exact settingText_map (k := .version) (by rw [hname]; rfl) fun v => by cases v <;> rfl
  next hname =>
    exact settingText_map (k := .modulesDir) (by rw [hname]; rfl) fun v => by cases v <;> rfl
  next hname =>
    exact settingText_map (k := .modulesDir) (by rw [hname]; rfl) fun v => by cases v <;> rfl
  next hname =>
    rw [Kdl.Node.occurrences_of_group .wait hname, foldlM_propertyOccurrences]
    simp only [← withProperty_wait]
    exact foldlM_part Settings.wait (fun s w => { s with wait := w }) (fun _ _ => rfl)
      (fun _ _ _ => rfl) (fun _ => rfl) _ _ s
  next hname =>
    rw [Kdl.Node.occurrences_of_group .retry hname, foldlM_propertyOccurrences]
    simp only [← withProperty_retry]
    exact foldlM_part Settings.retry (fun s r => { s with retry := r }) (fun _ _ => rfl)
      (fun _ _ _ => rfl) (fun _ => rfl) _ _ s
  next hplatform hversion hdir hdir' hwait hretry =>
    rw [Kdl.Node.occurrences_of_not_group, Setting.ofNode?, if_neg hplatform, if_neg hversion,
      if_neg (not_or.mpr ⟨hdir, hdir'⟩)]
    · rfl
    · intro group
      cases group with
      | wait => exact hwait
      | retry => exact hretry

/-- **Reading is taking in occurrences.** The settings of a document are the default settings with
the values of its occurrences, in their order, where the platform module needs a name. -/
theorem ofDocument_eq (document : Kdl.Document) :
    Settings.ofDocument document =
      (document.occurrences.foldlM assign .default).bind fun s =>
        if s.platform = "" then .error (.emptyText "platform") else .ok s := by
  have hfold (s : Settings) :
      document.foldlM Settings.withNode s =
        (Kdl.Document.occurrences document).foldlM assign s := by
    induction document generalizing s with
    | nil => rfl
    | cons node document ih =>
      rw [List.foldlM_cons, withNode_eq, Kdl.Document.occurrences, List.flatMap_cons,
        List.foldlM_append]
      exact congrArg (_ >>= ·) (funext ih)
  rw [Settings.ofDocument, hfold]

end Reconcile
