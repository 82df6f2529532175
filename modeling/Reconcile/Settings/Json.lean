import Reconcile.Json.Basic
import Reconcile.Settings.Basic

/-!
# Settings from JSON values

Settings as JSON values: a record is an object with a field for each of its parts, or the list of
its parts in their order. Of the settings and their groups every part may be missing, from the end
in the case of a list, and has its default then; fields of other names are ignored. A duration is a
record of whole seconds and nanoseconds, and of these nothing may be missing or added.
-/

namespace Reconcile

namespace Json

/-- A text. -/
def text? : Json → Option String
  | .str s => some s
  | _ => none

/-- A number, whether or not it is written as an integer. -/
def number? : Json → Option Float
  | .int n => some (Float.ofInt n)
  | .float x => some x
  | _ => none

/-- An integer from zero up to, but without, a limit. -/
def natBelow? (limit : Nat) : Json → Option Nat
  | .int n => if 0 ≤ n ∧ n < limit then some n.toNat else none
  | _ => none

/-- The parts of a record with the given names, each of which may be missing. -/
def parts? (names : List String) : Json → Option (List (Option Json))
  | .arr items =>
    if items.length ≤ names.length then
      some (items.map some ++ List.replicate (names.length - items.length) none)
    else none
  | .obj fields => some (names.map fun name => Fields.find? name fields)
  | _ => none

/-- A part as it is read, or its default where it is missing. -/
def partOr (default : α) (read : Json → Option α) : Option Json → Option α
  | some part => read part
  | none => some default

end Json

/-- A duration of the given seconds and nanoseconds. The nanoseconds may make up whole seconds, but
the seconds have to fit into 64 bits. -/
def Duration.ofParts? (secs nanos : Nat) : Option Duration :=
  if secs + nanos / perSecond < UInt64.size then some ⟨secs * perSecond + nanos⟩ else none

/-- The duration that a JSON value stands for. -/
def Duration.ofJson? (j : Json) : Option Duration :=
  let made (secs nanos : Json) : Option Duration := do
    Duration.ofParts? (← secs.natBelow? UInt64.size) (← nanos.natBelow? UInt32.size)
  match j with
  | .arr [secs, nanos] => made secs nanos
  | .obj [("nanos", nanos), ("secs", secs)] => made secs nanos
  | _ => none

/-- How to wait, from a JSON value. -/
def WaitSettings.ofJson? (j : Json) : Option WaitSettings :=
  let default := WaitSettings.default
  match j.parts? ["max_wait", "initial_delay", "max_delay", "multiplier"] with
  | some [maxWait, initialDelay, maxDelay, multiplier] => do
    return {
      maxWait := ← Json.partOr default.maxWait Duration.ofJson? maxWait
      backoff :=
        { initialDelay := ← Json.partOr default.backoff.initialDelay Duration.ofJson? initialDelay
          maxDelay := ← Json.partOr default.backoff.maxDelay Duration.ofJson? maxDelay
          multiplier := ← Json.partOr default.backoff.multiplier Json.number? multiplier } }
  | _ => none

/-- How to retry, from a JSON value. -/
def RetrySettings.ofJson? (j : Json) : Option RetrySettings :=
  let default := RetrySettings.default
  match j.parts? ["max_attempts", "initial_delay", "max_delay", "multiplier"] with
  | some [maxAttempts, initialDelay, maxDelay, multiplier] => do
    return {
      maxAttempts := ← Json.partOr default.maxAttempts (Json.natBelow? UInt32.size) maxAttempts
      backoff :=
        { initialDelay := ← Json.partOr default.backoff.initialDelay Duration.ofJson? initialDelay
          maxDelay := ← Json.partOr default.backoff.maxDelay Duration.ofJson? maxDelay
          multiplier := ← Json.partOr default.backoff.multiplier Json.number? multiplier } }
  | _ => none

/-- Settings from a JSON value. -/
def Settings.ofJson? (j : Json) : Option Settings :=
  let default := Settings.default
  match j.parts? ["platform", "version", "modules_dir", "wait", "retry"] with
  | some [platform, version, modulesDir, wait, retry] => do
    return {
      platform := ← Json.partOr default.platform Json.text? platform
      version := ← Json.partOr default.version Json.text? version
      modulesDir := ← Json.partOr default.modulesDir Json.text? modulesDir
      wait := ← Json.partOr default.wait WaitSettings.ofJson? wait
      retry := ← Json.partOr default.retry RetrySettings.ofJson? retry }
  | _ => none

end Reconcile
