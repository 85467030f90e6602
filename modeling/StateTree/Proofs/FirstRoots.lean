/-
Module: StateTree.Proofs.FirstRoots
Purpose: What happens while a site gets its first root, whatever stands in front of it. The stages
  that can be asked for a root are gone through once, for any relation of deployments that goes on
  from one step to the next: it holds over the whole as soon as it holds over what a replica does to
  its log and to itself.
-/
import StateTree.Deployment.Perform
import StateTree.Proofs.Attempts

namespace StateTree.Deployment

/-- What a replica does for a first root keeps this relation: it reads the stored snapshot or stores
one, loads it, and takes up its position. -/
structure KeptByReplicas (kept : Deployment → Deployment → Prop) : Prop where
  loadState : ∀ number (settings : ReplicaSettings),
    (consulted number settings.loadState).Keeps kept
  storeFirst : ∀ number (settings : ReplicaSettings) root,
    (consulted number (settings.storeFirst root)).Keeps kept
  load : ∀ number schema (document : StateDocument),
    (consulted number (document.load schema)).Keeps kept
  startAt : ∀ number position, (changeReplica number (·.startAt position)).Keeps kept

variable {kept : Deployment → Deployment → Prop} [IsPreorder Deployment kept] {next : Caller}
  {number : Nat} {down : Pipeline}

theorem keeps_replicaSchema : (replicaSchema number).Keeps kept :=
  .bind keeps_replica fun _ => .bind keeps_station fun _ => .pure _

/-- A replica starts from the stored snapshot, or stores the root of what is below it as the first
one. -/
theorem keeps_replicaRoot (replicas : KeptByReplicas kept)
    (supplied : (next.initialRoot down).Keeps kept) :
    (replicaRoot next number down).Keeps kept := by
  have begun (document : StateDocument) : (do
      let schema ← replicaSchema number
      let root ← consulted number (document.load schema)
      changeReplica number (·.startAt document.position)
      pure root : Attempt Node).Keeps kept :=
    .bind (.lift keeps_replicaSchema) fun schema =>
      .bind (replicas.load number schema document) fun root =>
        .bind (.lift (replicas.startAt number _)) fun _ => .pure root
  refine .bind (.lift keeps_replica) fun state => ?_
  refine .bind (replicas.loadState number _) fun stored => ?_
  cases stored with
  | some document => exact .bind (.pure document) begun
  | none =>
      refine .bind supplied fun root => .bind (replicas.storeFirst number _ root) fun first => ?_
      cases first with
      | some document => exact .bind (.pure document) begun
      | none => exact .bind (.throw _) begun

/-- A member of a set gets the root of another one that runs, or else of what is below. -/
theorem keeps_setRoot {name : String} {site : Nat}
    (supplied : (next.initialRoot down).Keeps kept) :
    (setRoot next name site down).Keeps kept := by
  refine .bind (.lift keeps_get) fun deployment => ?_
  split
  · exact .bind (.lift keeps_station) fun running => .pure _
  · exact supplied

/-- A broadcast asks one branch after the other, by induction on those that are left. -/
theorem keeps_firstRoot (supplied : ∀ down, (next.initialRoot down).Keeps kept)
    (met : List RootFault) (downs : List Pipeline) : (firstRoot next met downs).Keeps kept := by
  induction downs generalizing met with
  | nil => exact .pure _
  | cons down rest ih =>
      refine .bind (.outcome (supplied down)) fun found => ?_
      split
      · exact .pure _
      · exact ih _
      · exact .throw _

/-- Each stage adds to what the stages below it do no more than a replica does. -/
theorem keeps_initialRoot (replicas : KeptByReplicas kept)
    (supplied : ∀ down, (next.initialRoot down).Keeps kept) (pipeline : Pipeline) :
    (initialRoot next pipeline).Keeps kept := by
  cases pipeline with
  | site number standard =>
      cases standard with
      | some root => exact .pure root
      | none => exact .throw _
  | recorder terminal =>
      dsimp only [initialRoot]
      split
      · exact .pure _
      · exact .throw _
  | replicaSet name site down => exact keeps_setRoot (supplied down)
  | replica number down => exact keeps_replicaRoot replicas (supplied down)
  | broadcast downs =>
      refine .bind (keeps_firstRoot supplied [] downs) fun found => ?_
      cases found with
      | ok root => exact .pure root
      | error met => exact .throw _
  | buffer number down | worker number down | jitter config down | readOnly down =>
      exact supplied down

/-- So the relation holds over the whole, by induction on how deep calls are nested. -/
theorem keeps_caller_initialRoot (replicas : KeptByReplicas kept) (pipeline : Pipeline) :
    (caller.initialRoot pipeline).Keeps kept := by
  have within (depth : Nat) (pipeline : Pipeline) :
      (Caller.initialRoot ⟨fun call => performWithin depth call⟩ pipeline).Keeps kept := by
    induction depth generalizing pipeline with
    | zero => exact keeps_demand none
    | succ depth ih => exact keeps_initialRoot replicas ih pipeline
  exact within depthLimit pipeline

end StateTree.Deployment
