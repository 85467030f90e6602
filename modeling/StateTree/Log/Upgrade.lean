/-
Module: StateTree.Log.Upgrade
Purpose: Converting state documents between the format of a stored manifest and a preferred one.
  Manifests of one version differ in their format only.
-/
import StateTree.Log.Error

namespace StateTree

namespace Manifest

/-- Whether documents under a stored manifest can be converted. -/
def canUpgrade (preferred stored : Manifest) : Bool := stored.version == preferred.version

/-- A document in another format. The revision grows, so that concurrent writers notice. -/
def reencode (document : StateDocument) (format : StateFormat) : Except LogError StateDocument :=
  match document.node? with
  | some root => .ok (.ofNode root format (document.revision + 1) document.position)
  | none => .error .codec

/-- A document under a stored manifest in the preferred format. -/
def upgradeFrom (preferred stored : Manifest) (document : StateDocument) :
    Except LogError StateDocument :=
  if preferred.canUpgrade stored then reencode document preferred.format
  else .error (.manifestMismatch stored preferred)

/-- A document in the preferred format, back in the format of another manifest. -/
def downgradeTo (preferred target : Manifest) (document : StateDocument) :
    Except LogError StateDocument :=
  if preferred.canUpgrade target then reencode document target.format
  else .error (.manifestMismatch target preferred)

end Manifest

end StateTree
