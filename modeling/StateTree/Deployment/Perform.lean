/-
Module: StateTree.Deployment.Perform
Purpose: What each stage does with each call, and the calls tied together. Calls can lead to further
  calls without end, so there is a bound on how deep they may be nested; a run that stays below it
  gives the same result under any larger bound.
-/
import StateTree.Deployment.Following
import StateTree.Deployment.Holding
import StateTree.Deployment.Spreading
import StateTree.Deployment.Working

namespace StateTree.Deployment

variable (next : Caller)

/-- Keep a call that reached a recorder. -/
def record (terminal : Recorder) (call : RecordedCall) : Run Unit :=
  modify fun deployment =>
    { deployment with recorded := (terminal.name, call) :: deployment.recorded }

/-- The root that a site is to start from. -/
def initialRoot : Pipeline → Attempt Node
  | .site _ standard =>
      match standard with
      | some root => pure root
      | none => throw (.noRoot .noDefault)
  | .recorder terminal =>
      match terminal.root with
      | some root => pure root
      | none => throw (.noRoot (.emptyRecorder terminal.name))
  | .buffer _ down | .worker _ down | .jitter _ down | .readOnly down => next.initialRoot down
  | .replicaSet name site down => setRoot next name site down
  | .broadcast downs => broadcastRoot next downs
  | .replica number down => replicaRoot next number down

/-- Hand an update on. -/
def submit : Pipeline → Update → Attempt Unit
  | .site number _, update => changeSite next number (·.enqueue (.apply update))
  | .recorder terminal, update =>
      if terminal.refuses then throw (.unsupportedOperation (.recorder terminal.name))
      else record terminal (.submit update)
  | .buffer number _, update => bufferUpdate number update
  | .worker number _, update => queueUpdate number update
  | .jitter _ down, update => next.submit down update
  | .readOnly _, update =>
      throw (.unsupportedOperation (.readOnly update.operation.name update.target))
  | .replicaSet name _ _, update => submitToSet next name update
  | .broadcast downs, update => downs.forM fun down => next.submit down update
  | .replica number _, update => submitToLog number update

/-- Wait until all that was submitted has been applied. -/
def flush : Pipeline → Attempt Unit
  | .site number _ => awaitIdle number
  | .recorder terminal =>
      if terminal.isUnflushable then throw (.flushFailure (.recorder terminal.name))
      else record terminal .flush
  | .buffer number down => flushBuffer next number down
  | .worker number down => flushWorker next number down
  | .jitter _ down | .readOnly down => next.flush down
  | .replicaSet name _ _ => flushSet next name
  | .broadcast downs => downs.forM next.flush
  | .replica number down => flushReplica next number down

/-- End all background work. -/
def close : Pipeline → Run Unit
  | .site _ _ => pure ()
  | .recorder terminal => record terminal .close
  | .buffer _ down | .jitter _ down | .readOnly down => next.close down
  | .worker number down => closeWorker next number down
  | .replicaSet name site down => closeMember next name site down
  | .broadcast downs => downs.forM next.close
  | .replica number down => closeReplica next number down

/-- What a call does, given how the calls that it leads to are made. -/
def answer {α : Type} : Call α → Run α
  | .initialRoot pipeline => (initialRoot next pipeline).run
  | .submit pipeline update => (submit next pipeline update).run
  | .flush pipeline => (flush next pipeline).run
  | .close pipeline => close next pipeline
  | .drain number => drain next number

/-- Make a call that leads to calls nested at most so deep. -/
def performWithin : Nat → {α : Type} → Call α → Run α
  | 0, _, _ => demand none
  | depth + 1, _, call => answer ⟨fun call => performWithin depth call⟩ call

/-- How deep calls may be nested. -/
def depthLimit : Nat := 40000

/-- The way to make calls. -/
def caller : Caller := ⟨fun call => performWithin depthLimit call⟩

end StateTree.Deployment
