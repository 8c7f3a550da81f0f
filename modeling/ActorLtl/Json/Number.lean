/-
# Numbers in JSON texts

A number is written as an optional minus sign, a whole part without leading zeros, an
optional fraction and an optional exponent of ten.  `Numeral` holds these parts.  The
natural numbers below `2 ^ 64` that are written as a whole part alone are values of their own;
any other number only has to be one, within the range of double precision.

A number that is not natural is read as the digits that stay below `2 ^ 64`, times a power of
ten (`ActorLtl.Json.Precision`); further digits are not looked at.
-/

import ActorLtl.Json
import ActorLtl.Json.Precision

namespace ActorLtl

/-- The parts of a number as it is written.  Digits are kept as characters. -/
structure Numeral where
  negative : Bool
  whole : List Char
  fraction : List Char
  /-- The sign of the exponent, true for a minus, and its digits. -/
  exponent : Option (Bool × List Char)
  deriving DecidableEq, Repr

namespace Numeral

/-- The digits at the front, and the rest. -/
def digits (cs : List Char) : List Char × List Char := cs.span Char.isDigit

/-- Reads an exponent; nothing may follow. -/
def exponent? (cs : List Char) : Option (Option (Bool × List Char)) :=
  let signed (negative : Bool) (cs : List Char) :=
    if cs ≠ [] ∧ cs.all Char.isDigit then some (some (negative, cs)) else none
  match cs with
  | [] => some none
  | e :: cs =>
      if e = 'e' ∨ e = 'E' then
        match cs with
        | '-' :: cs => signed true cs
        | '+' :: cs => signed false cs
        | cs => signed false cs
      else none

/-- Reads an optional fraction and an optional exponent; nothing may follow. -/
def fraction? (cs : List Char) : Option (List Char × Option (Bool × List Char)) :=
  match cs with
  | '.' :: cs =>
      let (fraction, rest) := digits cs
      if fraction = [] then none else (exponent? rest).map fun exponent => (fraction, exponent)
  | cs => (exponent? cs).map fun exponent => ([], exponent)

/-- Reads the whole text of a number. -/
def ofChars? (cs : List Char) : Option Numeral := do
  let (negative, cs) := match cs with
    | '-' :: cs => (true, cs)
    | cs => (false, cs)
  let (whole, rest) := digits cs
  if whole = [] ∨ (whole.head? = some '0' ∧ whole ≠ ['0']) then none
  else do
    let (fraction, exponent) ← fraction? rest
    return { negative, whole, fraction, exponent }

/-- The exponent of ten that goes with the digits of whole part and fraction read as one
number. -/
def scale (n : Numeral) : Int :=
  let shift : Int := match n.exponent with
    | none => 0
    | some (true, ds) => - Nat.ofDigitChars 10 ds 0
    | some (false, ds) => Nat.ofDigitChars 10 ds 0
  shift - n.fraction.length

/-- Reads digits as long as the number stays below `2 ^ 64`: the number, which begins with
`value`, and how many digits are left over. -/
def readDigits (value : Nat) : List Char → Nat × Nat
  | [] => (value, 0)
  | d :: ds =>
      let more := Nat.ofDigitChars 10 [d] value
      if more < UInt64.size then readDigits more ds else (value, ds.length + 1)

/-- Whether the number is in the range of double precision.  Digits that are left over count
for their places only; a power of ten in the denominator makes no number too large. -/
def inRange (n : Numeral) : Bool :=
  let (value, left) := readDigits 0 (n.whole ++ n.fraction)
  Precision.inRange value (n.scale + left).toNat

/-- The natural number, if the numeral is a whole part alone and below `2 ^ 64`. -/
def natural? (n : Numeral) : Option Nat :=
  if n.negative ∨ n.fraction ≠ [] ∨ n.exponent ≠ none then none
  else
    let value := Nat.ofDigitChars 10 n.whole 0
    if value < UInt64.size then some value else none

end Numeral

/-- The value of a number's text. -/
def Json.ofNumber? (cs : List Char) : Option Json := do
  let numeral ← Numeral.ofChars? cs
  match numeral.natural? with
  | some value => return .natural value
  | none => return if numeral.inRange then .number (String.ofList cs) else .unreadable

/-- Whole numbers up to `2 ^ 64 - 1` are natural; a sign makes a number something else, and
leading zeros make it none. -/
example : Json.ofNumber? "18446744073709551615".toList = some (.natural 18446744073709551615) ∧
    Json.ofNumber? "-0".toList = some (.number "-0") ∧ Json.ofNumber? "01".toList = none := by
  refine ⟨?_, ?_, ?_⟩ <;> rfl

end ActorLtl
