import Reconcile.Backoff

/-!
# Settings

What can be configured: the module that all others build on, the version of modules that declare
none, where the directories of modules are, and how to wait and to retry.
-/

namespace Reconcile

/-- How long to wait for something, and how often to look. -/
structure WaitSettings where
  /-- The time after which waiting is given up. -/
  maxWait : Duration
  backoff : Backoff
deriving Repr

/-- How often to try something that may fail. -/
structure RetrySettings where
  maxAttempts : Nat
  backoff : Backoff
deriving Repr

/-- All that can be configured. -/
structure Settings where
  /-- The name of the module that every other module depends on. -/
  platform : String
  /-- The version of modules that do not declare one. -/
  version : String
  /-- The path of the directory that holds one directory per module. -/
  modulesDir : String
  wait : WaitSettings
  retry : RetrySettings
deriving Repr

/-- Waiting for five minutes at most. -/
protected def WaitSettings.default : WaitSettings := ⟨.ofSecs 300, .default⟩

/-- Three attempts. -/
protected def RetrySettings.default : RetrySettings := ⟨3, .default⟩

/-- The settings where nothing is configured. -/
protected def Settings.default : Settings where
  platform := "rowplane_platform"
  version := "0.1.0"
  modulesDir := "modules"
  wait := .default
  retry := .default

instance : Inhabited WaitSettings := ⟨.default⟩

instance : Inhabited RetrySettings := ⟨.default⟩

instance : Inhabited Settings := ⟨.default⟩

end Reconcile
