/-
# Blanks

The characters with the Unicode property `White_Space`, and texts without the blanks at
their ends.
-/

namespace ActorLtl

/-- The characters with the property `White_Space`. -/
def whiteSpace : List Nat :=
  [0x09, 0x0A, 0x0B, 0x0C, 0x0D, 0x20, 0x85, 0xA0, 0x1680, 0x2000, 0x2001, 0x2002, 0x2003,
   0x2004, 0x2005, 0x2006, 0x2007, 0x2008, 0x2009, 0x200A, 0x2028, 0x2029, 0x202F, 0x205F,
   0x3000]

/-- Whether a character is a blank. -/
def isWhiteSpace (c : Char) : Bool := whiteSpace.contains c.toNat

/-- A text without the blanks at its end. -/
def trimEnd (text : String) : String :=
  String.ofList ((text.toList.reverse.dropWhile isWhiteSpace).reverse)

/-- A text without the blanks at either end. -/
def trim (text : String) : String :=
  trimEnd (String.ofList (text.toList.dropWhile isWhiteSpace))

end ActorLtl
