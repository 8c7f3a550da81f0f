/-
# Writing JSON texts

A value is written in one line, or over several with two blanks of indentation for each array
or object around it.  Empty arrays and objects take one line either way.  In a text only the
double quote, the backslash and the characters below `U+0020` are escaped.
-/

import ActorLtl.Json

namespace ActorLtl

/-- How the items of an array or object are set. -/
inductive Layout where
  /-- All in one line, without blanks. -/
  | compact
  /-- Each on a line of its own, inside `level` arrays and objects. -/
  | indented (level : Nat)
  deriving Repr, DecidableEq

namespace Layout

/-- The layout inside one more array or object. -/
def inner : Layout → Layout
  | compact => compact
  | indented level => indented (level + 1)

/-- A new line, if the layout has any, followed by `rest`. -/
def lineOnto : Layout → List Char → List Char
  | compact, rest => rest
  | indented level, rest => '\n' :: (List.replicate (2 * level) ' ' ++ rest)

/-- What separates a key from its value, followed by `rest`. -/
def colonOnto : Layout → List Char → List Char
  | compact, rest => ':' :: rest
  | indented _, rest => ':' :: ' ' :: rest

end Layout

namespace Json

/-- The hexadecimal digit of a number below 16. -/
def hexDigit (n : Nat) : Char := Nat.digitChar n

/-- A character of a text as it is written, followed by `rest`. -/
def escapeOnto (c : Char) (rest : List Char) : List Char :=
  if c = '"' then '\\' :: '"' :: rest
  else if c = '\\' then '\\' :: '\\' :: rest
  else if c = '\x08' then '\\' :: 'b' :: rest
  else if c = '\x0c' then '\\' :: 'f' :: rest
  else if c = '\n' then '\\' :: 'n' :: rest
  else if c = '\r' then '\\' :: 'r' :: rest
  else if c = '\t' then '\\' :: 't' :: rest
  else if c.toNat < 0x20 then
    '\\' :: 'u' :: '0' :: '0' :: hexDigit (c.toNat / 16) :: hexDigit (c.toNat % 16) :: rest
  else c :: rest

/-- A quoted text, followed by `rest`. -/
def quoteOnto (text : String) (rest : List Char) : List Char :=
  '"' :: text.toList.foldr escapeOnto ('"' :: rest)

mutual
/-- A value as it is written, followed by `rest`. -/
def writeOnto (layout : Layout) : Json → List Char → List Char
  | null, rest => 'n' :: 'u' :: 'l' :: 'l' :: rest
  | bool true, rest => 't' :: 'r' :: 'u' :: 'e' :: rest
  | bool false, rest => 'f' :: 'a' :: 'l' :: 's' :: 'e' :: rest
  | natural value, rest => Nat.toDigits 10 value ++ rest
  | number numeral, rest => numeral.toList ++ rest
  | text content, rest => quoteOnto content rest
  | array [], rest => '[' :: ']' :: rest
  | array (v :: vs), rest =>
      '[' :: layout.inner.lineOnto (writeOnto layout.inner v
        (writeMoreOnto layout.inner vs (layout.lineOnto (']' :: rest))))
  | object [], rest => '{' :: '}' :: rest
  | object ((key, v) :: members), rest =>
      '{' :: layout.inner.lineOnto (quoteOnto key (layout.colonOnto (writeOnto layout.inner v
        (writeMoreMembersOnto layout.inner members (layout.lineOnto ('}' :: rest))))))
  | unreadable, rest => 'n' :: 'u' :: 'l' :: 'l' :: rest
  | stop, rest => 'n' :: 'u' :: 'l' :: 'l' :: rest
/-- The items after the first, followed by `rest`. -/
def writeMoreOnto (layout : Layout) : List Json → List Char → List Char
  | [], rest => rest
  | v :: vs, rest => ',' :: layout.lineOnto (writeOnto layout v (writeMoreOnto layout vs rest))
/-- The members after the first, followed by `rest`. -/
def writeMoreMembersOnto (layout : Layout) : List (String × Json) → List Char → List Char
  | [], rest => rest
  | (key, v) :: members, rest =>
      ',' :: layout.lineOnto (quoteOnto key (layout.colonOnto (writeOnto layout v
        (writeMoreMembersOnto layout members rest))))
end

/-- A value in one line. -/
def compact (v : Json) : String := String.ofList (v.writeOnto .compact [])

/-- A value over several lines. -/
def pretty (v : Json) : String := String.ofList (v.writeOnto (.indented 0) [])

end Json
end ActorLtl
