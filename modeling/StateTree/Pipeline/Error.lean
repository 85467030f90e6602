/-
Module: StateTree.Pipeline.Error
Purpose: What can go wrong on the way of an update to its sites. Each error names its cause; the
  wording is in `message?`.
-/
import StateTree.Log.Error

namespace StateTree

/-- Why no first root can be supplied. -/
inductive RootFault where
  | noDefault
  /-- None of so many pipelines has one. -/
  | allDeclined (count : Nat)
  | manifestMismatch (stored preferred : Manifest)
  | emptyRecorder (name : String)

/-- Why an operation is refused. -/
inductive RefusalFault where
  | readOnly (operation : String) (target : Path)
  | recorder (name : String)
  | stated (reason : String)

/-- Why nothing is known to have arrived. -/
inductive FlushFault where
  | log (error : LogError)
  | stateVanished
  /-- A barrier was not seen in time. -/
  | timeout
  | recorder (name : String)

/-- An error of a pipeline. -/
inductive PipelineError where
  /-- No first root can be supplied, with why others that were asked could not either. -/
  | unsupportedInitialization (fault : RootFault) (suppressed : List RootFault)
  | unsupportedOperation (fault : RefusalFault)
  /-- What was submitted may or may not apply later. -/
  | flushFailure (fault : FlushFault)
  /-- The stage is closed. -/
  | shutdown
  | tree (error : TreeError)

def RootFault.message : RootFault → String
  | .noDefault => "no default root function was supplied"
  | .allDeclined count => s!"none of {count} downstream drivers can supply an initial root"
  | .manifestMismatch stored preferred =>
      s!"manifest mismatch: stored {stored.text}, preferred {preferred.text}"
  | .emptyRecorder name => s!"recorder {name} has no root"

def RefusalFault.message : RefusalFault → String
  | .readOnly operation target => s!"{operation} of {target} on a read-only bosk"
  | .recorder name => s!"recorder {name} refuses"
  | .stated reason => reason

/-- The text of a fault, unless its words are another's. -/
def FlushFault.message? : FlushFault → Option String
  | .log error => error.message?
  | .stateVanished => some "state document vanished"
  | .timeout => none
  | .recorder name => some s!"recorder {name} cannot flush"

namespace PipelineError

/-- No first root can be supplied. -/
def noRoot (fault : RootFault) : PipelineError := .unsupportedInitialization fault []

/-- What an error of a log means to a pipeline. -/
def ofLog : LogError → PipelineError
  | .manifestMismatch stored preferred => .noRoot (.manifestMismatch stored preferred)
  | .tree error => .tree error
  | error => .flushFailure (.log error)

/-- The text of an error, unless its words are another's. -/
def message? : PipelineError → Option String
  | .unsupportedInitialization fault _ => some s!"unsupported initialization: {fault.message}"
  | .unsupportedOperation fault => some s!"unsupported operation: {fault.message}"
  | .flushFailure fault => fault.message?.map fun text => s!"flush failed: {text}"
  | .shutdown => some "driver is shut down"
  | .tree error => some error.message

end PipelineError

end StateTree
