/-
# What a registry has lived through

A registry changes by being asked for numbers of names, by conversions and assemblies, and by
being emptied.  A history is a list of such operations.  `run` is the registry at its end, and
`interned` lists, without looking at any registry, the names that have come in since it was
last emptied, in order and with repetitions.
-/

import ActorLtl.Definition
import ActorLtl.Expression.Keys
import ActorLtl.Registry.Names

namespace ActorLtl
namespace Registry

/-- What can be done with a registry. -/
inductive Operation where
  | intern (name : String)
  | lookup (name : String)
  | reset
  | convert (e : Expression)
  | assemble (limit : Nat) (d : Definition)

namespace Operation

/-- The registry after an operation. -/
def apply (r : Registry) : Operation → Registry
  | intern name => (r.intern name).2
  | lookup _ => r
  | reset => r.reset
  | convert e => (e.convert.run r).2
  | assemble limit d => ((d.assemble limit).run r).2

/-- The names that have come in after an operation, if `names` have before. -/
def interned (names : List String) : Operation → List String
  | intern name => names ++ [name]
  | lookup _ => names
  | reset => []
  | convert e => names ++ e.keys
  | assemble limit d =>
      if (d.excessiveDepth? limit).isSome then names
      else names ++ Expression.slotKeys d.expression

end Operation

/-- The registry at the end of a history that begins with an empty one. -/
def run (history : List Operation) : Registry := history.foldl Operation.apply ∅

/-- The names that have come in since the registry was last emptied. -/
def interned (history : List Operation) : List String :=
  history.foldl Operation.interned []

@[simp] theorem run_concat (history : List Operation) (op : Operation) :
    run (history ++ [op]) = op.apply (run history) := by
  simp [run]

@[simp] theorem interned_concat (history : List Operation) (op : Operation) :
    interned (history ++ [op]) = op.interned (interned history) := by
  simp [interned]

end Registry
end ActorLtl
