/-
# Taking in JSON values

A decoder takes in a value of one shape or refuses it.  It is told how many arrays and
objects it may still open inside one another, its *levels*; a file starts with 127, and a
value nested more deeply is refused.  What a decoder skips is not counted.

Records take their fields by name from an object, in any order, or by position from an array.
Unknown names are skipped, a known name that stands twice is refused, and so is an array with
more items than the record has fields.  `Entries` are the fields in the order in which they
are come to; what is refused is refused when it is come to, after the fields before it.
-/

import ActorLtl.Json

namespace ActorLtl

/-- How deeply arrays and objects may be nested in a file. -/
def fileLevels : Nat := 127

/-- Takes in a value, opening at most so many arrays and objects inside one another. -/
abbrev Decoder (α : Type) := Nat → Json → Option α

namespace Decoder

/-- A text. -/
def text : Decoder String
  | _, .text value => some value
  | _, _ => none

/-- A truth value. -/
def bool : Decoder Bool
  | _, .bool value => some value
  | _, _ => none

/-- A natural number below `2 ^ 64`. -/
def natural : Decoder Nat
  | _, .natural value => if value < UInt64.size then some value else none
  | _, _ => none

/-- A 64-bit word. -/
def word : Decoder UInt64
  | levels, v => (natural levels v).map UInt64.ofNat

/-- A list. -/
def list {α : Type} (item : Decoder α) : Decoder (List α)
  | levels + 1, .array items => items.mapM (item levels)
  | _, _ => none

/-- A value or `null`. -/
def optional {α : Type} (value : Decoder α) : Decoder (Option α)
  | _, .null => some none
  | levels, v => (value levels v).map some

/-- One of several names, by itself or as the key of an object whose only value is `null`. -/
def oneOf {α : Type} (names : List (String × α)) : Decoder α
  | _, .text name => names.lookup name
  | _ + 1, .object [(name, .null)] => names.lookup name
  | _, _ => none

/-- The fields of a record, with the levels that are left inside it. -/
structure Fields where
  levels : Nat
  find? : String → Option Json

namespace Fields

/-- A field that must be there. -/
def required {α : Type} (fields : Fields) (name : String) (field : Decoder α) : Option α :=
  (fields.find? name).bind (field fields.levels)

/-- A field that has a value of its own if it is not there. -/
def withDefault {α : Type} (fields : Fields) (name : String) (field : Decoder α) (default : α) :
    Option α :=
  match fields.find? name with
  | none => some default
  | some v => field fields.levels v

/-- A field that may be missing or `null`. -/
def optional {α : Type} (fields : Fields) (name : String) (field : Decoder α) :
    Option (Option α) :=
  fields.withDefault name (Decoder.optional field) none

end Fields

/-- The fields of a record in the order in which they are come to. -/
structure Entries where
  fields : List (String × Json)
  /-- Whether nothing is refused after them. -/
  complete : Bool
  deriving Repr, BEq

namespace Entries

/-- A field before the others. -/
def push (field : String × Json) (entries : Entries) : Entries :=
  { entries with fields := field :: entries.fields }

/-- The fields of an object, after those whose names have been `seen`. -/
def ofMembers (names seen : List String) : List (String × Json) → Entries
  | [] => ⟨[], true⟩
  | (key, v) :: members =>
      if v.isStop then ⟨[], false⟩
      else if key ∉ names then ofMembers names seen members
      else if key ∈ seen then ⟨[], false⟩
      else (ofMembers names (key :: seen) members).push (key, v)

/-- The fields of a record with these names, if the value is a record at all. -/
def of? (names : List String) : Json → Option Entries
  | .object members => some (ofMembers names [] members)
  | .array items => some ⟨names.zip items, items.length ≤ names.length⟩
  | _ => none

end Entries

/-- A record with these fields, in this order. -/
def record {α : Type} (names : List String) (build : Fields → Option α) : Decoder α
  | 0, _ => none
  | levels + 1, v =>
      (Entries.of? names v).bind fun entries =>
        if entries.complete then build ⟨levels, fun name => entries.fields.lookup name⟩ else none

/-- Takes in the fields of a record one after the other, as they are come to. -/
def inOrder {m : Type → Type} [Monad m] {α : Type} (names : List String)
    (field : String → Json → OptionT m α) (v : Json) : OptionT m (List (String × α)) := do
  let some entries := Entries.of? names v | failure
  let taken ← entries.fields.mapM fun (name, v) => return (name, ← field name v)
  if entries.complete then return taken else failure

end Decoder
end ActorLtl
