/-
Module: StateTree.Log.Startup
Purpose: How a replica joins a log: it agrees on a manifest, converting the stored snapshot if only
  its format differs, and it loads the snapshot, or stores the first one.
-/
import StateTree.Log.Program
import StateTree.Log.Settings
import StateTree.Log.Upgrade

namespace StateTree

namespace ReplicaSettings

/-- The manifest that a replica wants to run with. -/
def manifest (settings : ReplicaSettings) : Manifest := .new settings.preferredFormat

/-- A call, tried again as often as the settings say. -/
def attempt (settings : ReplicaSettings) {α : Type} (call : LogCall α) : LogProgram α :=
  .attempt call settings.backoff 0 settings.maxRetries

/-- Switch to the preferred manifest. When someone else has changed the manifest meanwhile, that
serves as well if they agree. -/
def switchManifest (settings : ReplicaSettings) (stored : Manifest)
    (document : Option StateDocument) : LogProgram Unit :=
  (LogProgram.call (.upgrade stored settings.manifest document)).recover fun error =>
    match error with
    | .manifestMismatch _ _ =>
        .ask .manifest fun
          | .ok (some now) => if now = settings.manifest then pure () else .fail error
          | _ => .fail error
    | _ => .fail error

/-- Agree on a manifest. -/
def negotiate (settings : ReplicaSettings) : LogProgram Unit := do
  let preferred := settings.manifest
  let stored ← settings.attempt (.initializeManifest preferred)
  if stored = preferred then pure ()
  else if preferred.canUpgrade stored then
    let state ← settings.attempt .state
    match state with
    | none => settings.switchManifest stored none
    | some document => do
        let converted ← LogProgram.ofExcept (preferred.upgradeFrom stored document)
        settings.switchManifest stored (some converted)
  else .fail (.manifestMismatch stored preferred)

/-- The stored snapshot, if there is one. -/
def loadState (settings : ReplicaSettings) : LogProgram (Option StateDocument) :=
  settings.attempt .state

/-- Store the first snapshot, as of the head. When another replica got there first, theirs is the
one; `none` when that is gone again. -/
def storeFirst (settings : ReplicaSettings) (root : Node) : LogProgram (Option StateDocument) := do
  let head ← settings.attempt .head
  let document := StateDocument.ofNode root settings.manifest.format 1 head
  let store : LogProgram (Option StateDocument) := do
    LogProgram.call (.replaceState none document)
    pure (some document)
  store.recover fun
    | .revisionConflict _ _ => .call .state
    | error => .fail error

end ReplicaSettings

end StateTree
