/-
# Reading JSON texts

A text is one value and nothing else but blanks.  Its tokens drive a machine that keeps a
stack of the arrays and objects that are still open, so the reader itself sets no bound on how
deeply they are nested; whoever takes the value in does (`ActorLtl.Json.Decoder`).

Strictly JSON: no comments, no comma before a closing bracket, no byte order mark.

A text that goes wrong somewhere has a value nevertheless, as far as it has been read: every
array and object that is open at that place ends with a stop.  `Document.complete` says that
nothing went wrong.
-/

import ActorLtl.Json.Token

namespace ActorLtl
namespace Json

/-- An array or object that is still open.  Items and members come last first. -/
inductive Frame where
  | array (items : List Json)
  /-- An object whose next value belongs to `key`; `none` for a key that denotes no text. -/
  | object (members : List (Option String × Json)) (key : Option String)
  deriving Repr, BEq

/-- What the machine waits for, inside the open arrays and objects of the stack. -/
inductive Machine where
  | value (stack : List Frame)
  /-- The first item of an array, or its end. -/
  | firstItem (stack : List Frame)
  /-- A comma or the end of an array. -/
  | afterItem (items : List Json) (stack : List Frame)
  /-- The first key of an object, or its end. -/
  | firstKey (stack : List Frame)
  | key (members : List (Option String × Json)) (stack : List Frame)
  | colon (members : List (Option String × Json)) (key : Option String) (stack : List Frame)
  /-- A comma or the end of an object. -/
  | afterMember (members : List (Option String × Json)) (stack : List Frame)
  /-- Nothing more: the text's value is complete. -/
  | done (value : Json)
  deriving Repr, BEq

namespace Machine

/-- Puts a complete value where it belongs. -/
def complete (v : Json) : List Frame → Machine
  | [] => done v
  | .array items :: stack => afterItem (v :: items) stack
  | .object members k :: stack => afterMember ((k, v) :: members) stack

/-- The object with these members, the last one first.  A key that denotes no text is a
stop. -/
def closeObject (members : List (Option String × Json)) : Json :=
  .object <| members.reverse.map fun
    | (some k, v) => (k, v)
    | (none, _) => ("", .stop)

/-- Meets a token that begins a value. -/
def beginValue? (stack : List Frame) : Token → Option Machine
  | .openArray => some (firstItem stack)
  | .openObject => some (firstKey stack)
  | .quoted (some content) => some (complete (.text content) stack)
  | .quoted none => some (complete .unreadable stack)
  | .scalar v => some (complete v stack)
  | _ => none

/-- Meets a token. -/
def step? : Machine → Token → Option Machine
  | value stack, token => beginValue? stack token
  | firstItem stack, .closeArray => some (complete (.array []) stack)
  | firstItem stack, token => beginValue? (.array [] :: stack) token
  | afterItem items stack, .comma => some (value (.array items :: stack))
  | afterItem items stack, .closeArray => some (complete (.array items.reverse) stack)
  | firstKey stack, .closeObject => some (complete (.object []) stack)
  | firstKey stack, .quoted k => some (colon [] k stack)
  | key members stack, .quoted k => some (colon members k stack)
  | colon members k stack, .colon => some (value (.object members k :: stack))
  | afterMember members stack, .comma => some (key members stack)
  | afterMember members stack, .closeObject => some (complete (closeObject members) stack)
  | _, _ => none

/-- Meets several tokens, as far as they are in place, and says whether all are. -/
def run (m : Machine) : List Token → Machine × Bool
  | [] => (m, true)
  | token :: tokens =>
      match m.step? token with
      | some m => m.run tokens
      | none => (m, false)

/-- **What follows is met only where nothing got in the way.** -/
theorem run_append (m : Machine) (ts us : List Token) :
    m.run (ts ++ us) = if (m.run ts).2 then (m.run ts).1.run us else m.run ts := by
  induction ts generalizing m with
  | nil => rfl
  | cons t ts ih =>
    cases h : m.step? t with
    | none => simp [run, h]
    | some next => simpa [run, h] using ih next

/-- The value in which `v` is the last thing that was read, inside the open arrays and objects
of the stack. -/
def cutOff (v : Json) : List Frame → Json
  | [] => v
  | .array items :: stack => cutOff (.array (.stop :: v :: items).reverse) stack
  | .object members k :: stack =>
      cutOff (closeObject ((none, .stop) :: (k, v) :: members)) stack

/-- The value as far as it has been read. -/
def soFar : Machine → Json
  | value stack => cutOff .stop stack
  | firstItem stack => cutOff (.array [.stop]) stack
  | afterItem items stack => cutOff (.array (.stop :: items).reverse) stack
  | firstKey stack => cutOff (closeObject [(none, .stop)]) stack
  | key members stack => cutOff (closeObject ((none, .stop) :: members)) stack
  | colon members _ stack => cutOff (closeObject ((none, .stop) :: members)) stack
  | afterMember members stack => cutOff (closeObject ((none, .stop) :: members)) stack
  | done v => v

/-- Whether the text's value is complete. -/
def isDone : Machine → Bool
  | done _ => true
  | _ => false

end Machine

/-- What a text holds. -/
structure Document where
  /-- The value, as far as the text is JSON. -/
  value : Json
  /-- Whether the text is this value and nothing else. -/
  complete : Bool
  deriving Repr, BEq

/-- What a text holds. -/
def read (text : String) : Document :=
  let (tokens, cut) := Token.ofChars text.toList
  let (m, all) := (Machine.value []).run tokens
  ⟨m.soFar, cut && all && m.isDone⟩

/-- The value that a text is. -/
def parse? (text : String) : Option Json :=
  let document := read text
  if document.complete then some document.value else none

/-- A text that breaks off holds what stands before. -/
example : read "[1, [2" = ⟨.array [.natural 1, .array [.natural 2, .stop], .stop], false⟩ ∧
    read "[1] 2" = ⟨.array [.natural 1], false⟩ ∧ read "[1]" = ⟨.array [.natural 1], true⟩ := by
  refine ⟨?_, ?_, ?_⟩ <;> rfl

end Json
end ActorLtl
