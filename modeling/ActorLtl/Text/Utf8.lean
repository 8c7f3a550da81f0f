/-
# Bytes as text

Output of another program is bytes that should be UTF-8.  `decode` reads any bytes: where
they are not UTF-8 it puts one replacement character, `U+FFFD`, for each longest run that
could have begun a character, or for one byte where none could, and goes on after it.

| first byte | second byte | further bytes |
| --- | --- | --- |
| `00`–`7F` | | |
| `C2`–`DF` | `80`–`BF` | |
| `E0` | `A0`–`BF` | one of `80`–`BF` |
| `E1`–`EC`, `EE`, `EF` | `80`–`BF` | one |
| `ED` | `80`–`9F` | one |
| `F0` | `90`–`BF` | two |
| `F1`–`F3` | `80`–`BF` | two |
| `F4` | `80`–`8F` | two |
-/

namespace ActorLtl
namespace Utf8

/-- What stands for bytes that are no character. -/
def replacement : Char := '\uFFFD'

/-- The bounds of the second byte after this first byte, and how many bytes of `80`–`BF`
follow the second. -/
def second? (first : Nat) : Option (Nat × Nat × Nat) :=
  if 0xC2 ≤ first ∧ first ≤ 0xDF then some (0x80, 0xBF, 0)
  else if first = 0xE0 then some (0xA0, 0xBF, 1)
  else if first = 0xED then some (0x80, 0x9F, 1)
  else if 0xE1 ≤ first ∧ first ≤ 0xEF then some (0x80, 0xBF, 1)
  else if first = 0xF0 then some (0x90, 0xBF, 2)
  else if 0xF1 ≤ first ∧ first ≤ 0xF3 then some (0x80, 0xBF, 2)
  else if first = 0xF4 then some (0x80, 0x8F, 2)
  else none

/-- The bits of the code point that the first byte of a longer character carries. -/
def leadBits (first : Nat) : Nat :=
  if first < 0xE0 then first % 0x20 else if first < 0xF0 then first % 0x10 else first % 0x08

/-- A character that has begun: the bits so far, the bounds of the next byte, and how many
bytes of `80`–`BF` follow the next. -/
structure Begun where
  bits : Nat
  low : Nat
  high : Nat
  more : Nat
  deriving DecidableEq, Repr

/-- The text so far, its last character first, and the character that has begun. -/
structure Pass where
  reversed : List Char
  begun : Option Begun
  deriving DecidableEq, Repr

namespace Pass

/-- Meets a byte between characters. -/
def first (reversed : List Char) (byte : Nat) : Pass :=
  if byte < 0x80 then ⟨Char.ofNat byte :: reversed, none⟩
  else match second? byte with
    | some (low, high, more) => ⟨reversed, some ⟨leadBits byte, low, high, more⟩⟩
    | none => ⟨replacement :: reversed, none⟩

/-- Meets a byte. -/
def step (p : Pass) (byte : UInt8) : Pass :=
  match p.begun with
  | none => first p.reversed byte.toNat
  | some b =>
      if b.low ≤ byte.toNat ∧ byte.toNat ≤ b.high then
        let bits := b.bits * 0x40 + byte.toNat % 0x40
        match b.more with
        | 0 => ⟨Char.ofNat bits :: p.reversed, none⟩
        | more + 1 => ⟨p.reversed, some ⟨bits, 0x80, 0xBF, more⟩⟩
      else first (replacement :: p.reversed) byte.toNat

/-- The text when no byte is left; a character that has only begun is replaced. -/
def finish (p : Pass) : String :=
  String.ofList (if p.begun.isSome then replacement :: p.reversed else p.reversed).reverse

end Pass

/-- The text of any bytes. -/
def decode (bytes : List UInt8) : String := (bytes.foldl Pass.step ⟨[], none⟩).finish

/-- A cut-off character is replaced once, and the byte that cuts it off counts anew. -/
example : decode [0xE2, 0x82, 0x41, 0xF0, 0x9F, 0x98, 0xC0, 0xC3] =
    "\uFFFDA\uFFFD\uFFFD\uFFFD" := by decide +kernel

end Utf8
end ActorLtl
