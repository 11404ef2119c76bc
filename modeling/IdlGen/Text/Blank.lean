import IdlGen.Text.CodeRange

/-!
# Blank characters

Blank means the Unicode property White_Space. Layout between tokens, the trimming of
documentation lines and the trimming of option values all use this one class.
-/

namespace IdlGen.Text

/-- The code points with the property White_Space. -/
def blankRanges : CodeRanges :=
  [(0x9, 0xD), (0x20, 0x20), (0x85, 0x85), (0xA0, 0xA0), (0x1680, 0x1680), (0x2000, 0x200A),
   (0x2028, 0x2029), (0x202F, 0x202F), (0x205F, 0x205F), (0x3000, 0x3000)]

/-- Whether the character is white space. -/
def isBlank (c : Char) : Bool := blankRanges.covers c

/-- Drops blanks from the front. -/
def trimFront (cs : List Char) : List Char := cs.dropWhile isBlank

/-- Drops blanks from the back. -/
def trimBack (cs : List Char) : List Char := (cs.reverse.dropWhile isBlank).reverse

/-- Drops blanks from both ends. -/
def trimBoth (cs : List Char) : List Char := trimBack (trimFront cs)

/-- The text without the blanks at its two ends. -/
def trim (s : String) : String := String.ofList (trimBoth s.toList)

/-- Whether nothing but blanks is in the text. -/
def allBlank (cs : List Char) : Bool := cs.all isBlank

end IdlGen.Text
