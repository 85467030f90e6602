/-
Module: StateTree.Log.Status
Purpose: The health of a replica: its manifest and its tree against what the log has.
-/
import StateTree.Codec.Difference
import StateTree.Log.Manifest

namespace StateTree

/-- A replica's manifest and the stored one, if that could be read. -/
structure ManifestStatus where
  expected : Manifest
  actual : Option Manifest

/-- What was found out about a replica. With an error the rest may be incomplete. -/
structure StatusReport where
  error : Option String
  manifest : ManifestStatus
  /-- The tree that the log describes against the replica's own. -/
  difference : Difference

namespace StatusReport

/-- Whether the stored manifest is the replica's. -/
def manifestMatches (report : StatusReport) : Bool :=
  report.manifest.actual == some report.manifest.expected

def isHealthy (report : StatusReport) : Bool :=
  report.error.isNone && report.manifestMatches && report.difference.isNone

end StatusReport

end StateTree
