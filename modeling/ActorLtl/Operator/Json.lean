/-
# Operators in JSON

An operator is written as its name.  Comparison and arithmetic are written as an object whose
key is the group and whose value is the name inside the group, `{"Comparison":"Equal"}`.
-/

import ActorLtl.Json.Decoder
import ActorLtl.Operator

namespace ActorLtl

namespace Comparison

/-- The comparisons with their names. -/
def names : List (String × Comparison) :=
  [("Equal", .equal), ("NotEqual", .notEqual), ("LessThan", .lessThan),
   ("LessEqual", .lessEqual), ("GreaterThan", .greaterThan), ("GreaterEqual", .greaterEqual)]

/-- The name of a comparison. -/
def name : Comparison → String
  | equal => "Equal"
  | notEqual => "NotEqual"
  | lessThan => "LessThan"
  | lessEqual => "LessEqual"
  | greaterThan => "GreaterThan"
  | greaterEqual => "GreaterEqual"

theorem lookup_name (c : Comparison) : names.lookup c.name = some c := by
  cases c <;> decide

def toJson (c : Comparison) : Json := .text c.name

def decoder : Decoder Comparison := .oneOf names

end Comparison

namespace Arithmetic

/-- The arithmetic operators with their names. -/
def names : List (String × Arithmetic) :=
  [("Add", .add), ("Subtract", .subtract), ("Multiply", .multiply), ("Divide", .divide),
   ("Remainder", .remainder)]

/-- The name of an arithmetic operator. -/
def name : Arithmetic → String
  | add => "Add"
  | subtract => "Subtract"
  | multiply => "Multiply"
  | divide => "Divide"
  | remainder => "Remainder"

theorem lookup_name (a : Arithmetic) : names.lookup a.name = some a := by
  cases a <;> decide

def toJson (a : Arithmetic) : Json := .text a.name

def decoder : Decoder Arithmetic := .oneOf names

end Arithmetic

namespace BinaryOperator

/-- The operators outside the two groups, with their names. -/
def names : List (String × BinaryOperator) :=
  [("And", .and), ("Or", .or), ("Implies", .implies), ("Iff", .iff),
   ("Globally", .globally), ("Finally", .eventually), ("Next", .next),
   ("Until", .strongUntil), ("WeakUntil", .weakUntil), ("StrongRelease", .strongRelease),
   ("Release", .release)]

def toJson : BinaryOperator → Json
  | and => .text "And"
  | or => .text "Or"
  | implies => .text "Implies"
  | iff => .text "Iff"
  | globally => .text "Globally"
  | eventually => .text "Finally"
  | next => .text "Next"
  | strongUntil => .text "Until"
  | weakUntil => .text "WeakUntil"
  | strongRelease => .text "StrongRelease"
  | release => .text "Release"
  | comparison c => .object [("Comparison", c.toJson)]
  | arithmetic a => .object [("Arithmetic", a.toJson)]

def decoder : Decoder BinaryOperator
  | levels + 1, .object [("Comparison", v)] => (Comparison.decoder levels v).map comparison
  | levels + 1, .object [("Arithmetic", v)] => (Arithmetic.decoder levels v).map arithmetic
  | levels, v => Decoder.oneOf names levels v

end BinaryOperator

namespace UnaryOperator

/-- The operators before one operand, with their names. -/
def names : List (String × UnaryOperator) :=
  [("Not", .not), ("Globally", .globally), ("Finally", .eventually), ("Next", .next),
   ("Sign", .sign)]

def toJson : UnaryOperator → Json
  | not => .text "Not"
  | globally => .text "Globally"
  | eventually => .text "Finally"
  | next => .text "Next"
  | sign => .text "Sign"

def decoder : Decoder UnaryOperator := .oneOf names

end UnaryOperator

namespace TemporalCall

/-- The temporal calls with their names. -/
def names : List (String × TemporalCall) :=
  [("Globally", .globally), ("Finally", .eventually), ("Next", .next)]

def toJson : TemporalCall → Json
  | globally => .text "Globally"
  | eventually => .text "Finally"
  | next => .text "Next"

def decoder : Decoder TemporalCall := .oneOf names

end TemporalCall
end ActorLtl
