/-
Module: StateTree.Site.Reference
Purpose: References, typed handles to locations of a site's tree. A reference holds no snapshot; it
  is read in the snapshot that its site has pinned to the thread, or in one that is given.
-/
import StateTree.Site.ReadContext
import StateTree.Accessor.Read
import StateTree.View.Basic

namespace StateTree

/-- What can go wrong in reading through a reference. -/
inductive ReadError where
  /-- Nothing is there in the snapshot. -/
  | nonexistent (path : Path)
  /-- No snapshot of the site is pinned to the thread, or the given one is another site's. -/
  | outsideContext (path : Path)
  | tree (error : TreeError)

/-- The text of an error. -/
def ReadError.message : ReadError → String
  | .nonexistent path => s!"nonexistent reference: {path}"
  | .outsideContext path => s!"no read context is open for {path}"
  | .tree error => error.message

/-- A location of a site's tree and how the node there is read. -/
structure Reference where
  site : Nat
  schema : Schema
  accessor : Accessor
  reading : Reading

namespace Reference

/-- The reference to a path, if values of the reading's kind belong there. -/
def new (site : Nat) (schema : Schema) (reading : Reading) (path : Path) :
    Except TreeError Reference := do
  let accessor ← schema.resolveAs path reading.kind
  pure ⟨site, schema, accessor, reading⟩

def path (reference : Reference) : Path := reference.accessor.path

def isParameterized (reference : Reference) : Bool := reference.path.isParameterized

/-- A reference as it is shown to developers. -/
def text (reference : Reference) : String := s!"Reference({reference.path})"

/-- References are equal when they have the same path below the same root type. -/
def equals (reference other : Reference) : Bool :=
  reference.schema.rootType == other.schema.rootType && reference.path == other.path

/-! ## Navigation -/

/-- The reference to another path of the site. -/
def atPath (reference : Reference) (reading : Reading) (path : Path) : Except TreeError Reference :=
  new reference.site reference.schema reading path

/-- One segment deeper. -/
def push (reference : Reference) (reading : Reading) (segment : Segment) :
    Except TreeError Reference :=
  reference.atPath reading (reference.path.push segment)

/-- A number of segments closer to the root. -/
def truncatedBy (reference : Reference) (reading : Reading) (count : Nat) :
    Except TreeError Reference :=
  match reference.path.dropLast count with
  | .ok path => reference.atPath reading path
  | .error error => .error (.pathError error)

/-- The first of these paths at which values of the reading's kind belong. -/
def firstOfKind (reference : Reference) (reading : Reading) :
    List Path → Except TreeError Reference
  | [] => .error (.noEnclosing reference.path reading.kind)
  | path :: rest => do
      let accessor ← reference.schema.resolve path
      match accessor.checkKind reading.kind with
      | .ok () => pure ⟨reference.site, reference.schema, accessor, reading⟩
      | .error _ => firstOfKind reference reading rest

/-- The paths that enclose a path, the nearest first. -/
def ancestors (path : Path) : List Path := ((List.range path.length).map path.take).reverse

/-- The nearest enclosing location at which values of the reading's kind belong. -/
def enclosing (reference : Reference) (reading : Reading) : Except TreeError Reference :=
  reference.firstOfKind reading (ancestors reference.path)

/-- The reference with its parameters replaced, from the left. -/
def boundTo (reference : Reference) (ids : List Identifier) : Except TreeError Reference :=
  match reference.path.bind ids with
  | .ok path => reference.atPath reference.reading path
  | .error error => .error (.pathError error)

/-- The reference with its parameters replaced by what a path, an instance of this one, has at
their places. -/
def boundBy (reference : Reference) (concrete : Path) : Except TreeError Reference :=
  match concrete.parameterValues? reference.path with
  | some ids => reference.boundTo ids
  | none => .error (.malformedPath concrete (.noInstance reference.path))

/-- The same location, read as it is. -/
def asNode (reference : Reference) : Reference := { reference with reading := View.node.reading }

/-! ## Reading -/

/-- The value in a root of the same schema. -/
def valueAt (reference : Reference) (root : Node) : Except ReadError Node :=
  match reference.accessor.get root with
  | .ok node => (reference.reading.read node).mapError .tree
  | .error (.nonexistent path) => .error (.nonexistent path)
  | .error error => .error (.tree error)

/-- The value in the snapshot that is pinned to the thread. -/
def value (reference : Reference) (bindings : Bindings) : Except ReadError Node :=
  match bindings.root? reference.site with
  | some root => reference.valueAt root
  | none => .error (.outsideContext reference.path)

/-- The value in the snapshot of a context. -/
def valueIn (reference : Reference) (context : ReadContext) : Except ReadError Node :=
  if context.site = reference.site then reference.valueAt context.root
  else .error (.outsideContext reference.path)

/-- A result in which absence is a value. -/
def orAbsent : Except ReadError Node → Except ReadError (Option Node)
  | .ok node => .ok (some node)
  | .error (.nonexistent _) => .ok none
  | .error error => .error error

end Reference

end StateTree
