/-
# Actor models and the references to them

An actor model declares classes and instances of them.  A property file may only speak of
declared instances: wherever a definition of any section, at any depth, accesses a member of
a plain name, that name has to be an instance.  A name with an argument list is a call, not a
reference, and a member of anything else refers to nothing either.
-/

import ActorLtl.Definition

namespace ActorLtl

/-- An instance of a class. -/
structure ActorInstance where
  name : String
  className : String
  deriving DecidableEq, Repr, Inhabited

/-- What a model declares. -/
structure ActorModel where
  classes : List String
  instances : List ActorInstance
  deriving DecidableEq, Repr, Inhabited

/-- Whether an instance of this name is declared. -/
def ActorModel.hasInstance (m : ActorModel) (name : String) : Bool :=
  m.instances.any (·.name == name)

theorem ActorModel.hasInstance_iff {m : ActorModel} {name : String} :
    m.hasInstance name ↔ ∃ i ∈ m.instances, i.name = name := by
  simp [hasInstance]

namespace Expression

/-- The name whose member the node accesses. -/
def referredName? : Expression → Option String
  | member (some (term _ (some name) none)) _ => some name
  | _ => none

/-- The name whose member the node accesses, if it is no instance of the model. -/
def undeclaredName? (m : ActorModel) (e : Expression) : Option String :=
  e.referredName?.bind fun name => if m.hasInstance name then none else some name

/-- The undeclared name that the walk over a tree meets first. -/
def firstUndeclared? (m : ActorModel) (e : Expression) : Option String :=
  e.fold (fun found _ node => found.or (node.undeclaredName? m)) none

end Expression

namespace PropertyModel

/-- The complaint about one definition. -/
def complaint? (m : ActorModel) (d : Definition) : Option SourceError :=
  (d.expression.bind (·.firstUndeclared? m)).map fun name => .unknownInstance d.name name

/-- The property model, if all its references are declared; otherwise the complaint about the
first definition that has one that is not. -/
def check (m : ActorModel) (p : PropertyModel) : Except SourceError PropertyModel :=
  match p.all.findSome? (complaint? m) with
  | some complaint => .error complaint
  | none => .ok p

end PropertyModel
end ActorLtl
