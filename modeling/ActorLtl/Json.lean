/-
# JSON values

The data format of all files.  A value keeps what a reader of these files can ask for: texts,
truth values, natural numbers below `2 ^ 64`, lists, and objects whose members keep their
order and may repeat a key.

Two kinds of leaf stand for what is grammatical but never asked for.  A `number` is any other
number, kept as it was written.  An `unreadable` value denotes nothing: a text with half of a
surrogate pair, a number outside the range of double precision.  A reader may skip an
unreadable value but not take it in.

A `stop` is no value.  It stands in an array or object where whoever takes that in gets no
further: at a member whose key denotes no text, and where the text ceases to be JSON.  What
stands before it can still be taken in.
-/

namespace ActorLtl

/-- A JSON value. -/
inductive Json where
  | null
  | bool (value : Bool)
  /-- A number written with digits only, below `2 ^ 64`. -/
  | natural (value : Nat)
  /-- Any other number, as it is written. -/
  | number (text : String)
  | text (value : String)
  | array (items : List Json)
  | object (members : List (String × Json))
  /-- What can be skipped only. -/
  | unreadable
  /-- What can be neither skipped nor taken in. -/
  | stop
  deriving Repr, BEq, Inhabited

namespace Json

mutual
/-- How many arrays and objects are nested in one another. -/
def nesting : Json → Nat
  | array items => 1 + listNesting items
  | object members => 1 + memberNesting members
  | null => 0
  | bool _ => 0
  | natural _ => 0
  | number _ => 0
  | text _ => 0
  | unreadable => 0
  | stop => 0
/-- The deepest nesting among several values. -/
def listNesting : List Json → Nat
  | [] => 0
  | v :: vs => max (nesting v) (listNesting vs)
/-- The deepest nesting among the values of several members. -/
def memberNesting : List (String × Json) → Nat
  | [] => 0
  | (_, v) :: members => max (nesting v) (memberNesting members)
end

mutual
/-- Whether a value can be taken in as a whole: nothing in it is unreadable, and no stop. -/
def isReadable : Json → Bool
  | array items => listReadable items
  | object members => membersReadable members
  | unreadable => false
  | stop => false
  | null => true
  | bool _ => true
  | natural _ => true
  | number _ => true
  | text _ => true
/-- Whether several values can be taken in. -/
def listReadable : List Json → Bool
  | [] => true
  | v :: vs => isReadable v && listReadable vs
/-- Whether the values of several members can be taken in. -/
def membersReadable : List (String × Json) → Bool
  | [] => true
  | (_, v) :: members => isReadable v && membersReadable members
end

/-- Whether this is a stop. -/
def isStop : Json → Bool
  | stop => true
  | _ => false

/-- The value of the first member with this key. -/
def member? (v : Json) (key : String) : Option Json :=
  match v with
  | object members => members.lookup key
  | _ => none

end Json
end ActorLtl
