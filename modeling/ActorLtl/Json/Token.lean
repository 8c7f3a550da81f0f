/-
# The tokens of a JSON text

A JSON text is cut into punctuation, quoted texts and scalars in one pass over its
characters.  Between tokens stand blanks: space, tab, line feed and carriage return.  A run of
other characters outside quotes is a *word*, which is `null`, `true`, `false` or a number, or
no token at all.

Inside quotes a character below `U+0020` must be escaped.  `\u` escapes are UTF-16 code units,
so a character beyond `U+FFFF` is a pair of them, the high half directly before the low one;
a text with an unpaired half is a token that denotes no text.

A text that is not JSON still has the tokens before the place where it goes wrong.
-/

import ActorLtl.Json.Number

namespace ActorLtl

/-- A token of a JSON text. -/
inductive Token where
  | openArray
  | closeArray
  | openObject
  | closeObject
  | comma
  | colon
  /-- A quoted text; `none` if half of a surrogate pair stands alone in it. -/
  | quoted (value : Option String)
  /-- `null`, `true`, `false` or a number. -/
  | scalar (value : Json)
  deriving Repr, BEq

namespace Token

/-- A quoted text as far as it has been read. -/
structure Quoted where
  /-- The characters, the last one first. -/
  reversed : List Char
  /-- The high half of a surrogate pair whose low half must come next. -/
  high : Option Nat
  /-- Whether every half so far has found its other half. -/
  sound : Bool
  deriving Repr, BEq

namespace Quoted

/-- Just after the opening quote. -/
def start : Quoted := ⟨[], none, true⟩

/-- Takes in a character. -/
def push (q : Quoted) (c : Char) : Quoted :=
  ⟨c :: q.reversed, none, q.sound && q.high.isNone⟩

/-- Takes in a UTF-16 code unit. -/
def pushUnit (q : Quoted) (u : Nat) : Quoted :=
  match q.high with
  | some h =>
      if 0xDC00 ≤ u ∧ u ≤ 0xDFFF then
        ⟨Char.ofNat (0x10000 + (h - 0xD800) * 0x400 + (u - 0xDC00)) :: q.reversed, none, q.sound⟩
      else ⟨q.reversed, none, false⟩
  | none =>
      if 0xD800 ≤ u ∧ u ≤ 0xDBFF then ⟨q.reversed, some u, q.sound⟩
      else if 0xDC00 ≤ u ∧ u ≤ 0xDFFF then ⟨q.reversed, none, false⟩
      else ⟨Char.ofNat u :: q.reversed, none, q.sound⟩

/-- The text at the closing quote. -/
def finish (q : Quoted) : Option String :=
  if q.sound && q.high.isNone then some (String.ofList q.reversed.reverse) else none

end Quoted

/-- Where the pass stands between two characters. -/
inductive Place where
  | outside
  /-- In a word, whose last character is the first of the list. -/
  | word (reversed : List Char)
  | quoted (q : Quoted)
  /-- After a backslash. -/
  | escape (q : Quoted)
  /-- In a `\u` escape of which `missing` digits are to come. -/
  | codeUnit (q : Quoted) (missing value : Nat)
  deriving Repr, BEq

/-- The value of a word. -/
def wordValue? (cs : List Char) : Option Json :=
  if cs = ['n', 'u', 'l', 'l'] then some .null
  else if cs = ['t', 'r', 'u', 'e'] then some (.bool true)
  else if cs = ['f', 'a', 'l', 's', 'e'] then some (.bool false)
  else Json.ofNumber? cs

/-- The punctuation token that a character is. -/
def punctuation? (c : Char) : Option Token :=
  if c = '[' then some openArray
  else if c = ']' then some closeArray
  else if c = '{' then some openObject
  else if c = '}' then some closeObject
  else if c = ',' then some comma
  else if c = ':' then some colon
  else none

/-- Whether a character may stand between tokens. -/
def isBlank (c : Char) : Bool := c = ' ' || c = '\t' || c = '\n' || c = '\r'

/-- What a single letter after a backslash stands for. -/
def escaped? (c : Char) : Option Char :=
  if c = '"' then some '"'
  else if c = '\\' then some '\\'
  else if c = '/' then some '/'
  else if c = 'b' then some '\x08'
  else if c = 'f' then some '\x0c'
  else if c = 'n' then some '\n'
  else if c = 'r' then some '\r'
  else if c = 't' then some '\t'
  else none

/-- The value of a hexadecimal digit of either case. -/
def hexDigit? (c : Char) : Option Nat :=
  if '0' ≤ c ∧ c ≤ '9' then some (c.toNat - '0'.toNat)
  else if 'a' ≤ c ∧ c ≤ 'f' then some (c.toNat - 'a'.toNat + 10)
  else if 'A' ≤ c ∧ c ≤ 'F' then some (c.toNat - 'A'.toNat + 10)
  else none

/-- The pass: where it stands, and the tokens it has found, the last one first. -/
structure Pass where
  place : Place
  reversed : List Token
  deriving Repr, BEq

namespace Pass

/-- Before the first character. -/
def start : Pass := ⟨.outside, []⟩

/-- Ends a word.  Nothing may end inside quotes. -/
def endWord? (p : Pass) : Option Pass :=
  match p.place with
  | .outside => some p
  | .word reversed =>
      (wordValue? reversed.reverse).map fun value => ⟨.outside, .scalar value :: p.reversed⟩
  | _ => none

/-- Meets a character that is not inside quotes. -/
def outside? (p : Pass) (c : Char) : Option Pass :=
  match punctuation? c with
  | some token => p.endWord?.map fun p => ⟨.outside, token :: p.reversed⟩
  | none =>
      if isBlank c then p.endWord?
      else if c = '"' then p.endWord?.map fun p => ⟨.quoted .start, p.reversed⟩
      else match p.place with
        | .word reversed => some ⟨.word (c :: reversed), p.reversed⟩
        | _ => some ⟨.word [c], p.reversed⟩

/-- Meets a character. -/
def step? (p : Pass) (c : Char) : Option Pass :=
  match p.place with
  | .outside | .word _ => p.outside? c
  | .quoted q =>
      if c = '"' then some ⟨.outside, .quoted q.finish :: p.reversed⟩
      else if c = '\\' then some ⟨.escape q, p.reversed⟩
      else if c.toNat < 0x20 then none
      else some ⟨.quoted (q.push c), p.reversed⟩
  | .escape q =>
      if c = 'u' then some ⟨.codeUnit q 4 0, p.reversed⟩
      else (escaped? c).map fun c => ⟨.quoted (q.push c), p.reversed⟩
  | .codeUnit q missing value =>
      (hexDigit? c).map fun digit =>
        if missing ≤ 1 then ⟨.quoted (q.pushUnit (16 * value + digit)), p.reversed⟩
        else ⟨.codeUnit q (missing - 1) (16 * value + digit), p.reversed⟩

/-- Meets several characters, as far as they belong to tokens, and says whether all do. -/
def run (p : Pass) : List Char → Pass × Bool
  | [] => (p, true)
  | c :: cs =>
      match p.step? c with
      | some p => p.run cs
      | none => (p, false)

/-- **What follows is met only where nothing got in the way.** -/
theorem run_append (p : Pass) (cs ds : List Char) :
    p.run (cs ++ ds) = if (p.run cs).2 then (p.run cs).1.run ds else p.run cs := by
  induction cs generalizing p with
  | nil => rfl
  | cons c cs ih =>
    cases h : p.step? c with
    | none => simp [run, h]
    | some next => simpa [run, h] using ih next

end Pass

/-- The tokens of a text, up to the first character that belongs to none, and whether they are
the whole text. -/
def ofChars (cs : List Char) : List Token × Bool :=
  let (p, all) := Pass.start.run cs
  match p.endWord? with
  | some ended => (ended.reversed.reverse, all)
  | none => (p.reversed.reverse, false)

end Token
end ActorLtl
