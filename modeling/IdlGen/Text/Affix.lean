/-!
# Beginnings, ends and parts of texts
-/

namespace IdlGen.Text

/-- Whether the text begins with another. -/
def startsWith (s front : String) : Bool := front.toList.isPrefixOf s.toList

/-- Whether the text ends with another. -/
def endsWith (s back : String) : Bool := back.toList.isSuffixOf s.toList

/-- The text without its last characters. -/
def dropEnd (s : String) (n : Nat) : String := String.ofList (s.toList.take (s.length - n))

/-- The parts between the marks; there is one more of them than marks. -/
def split (mark : Char) : List Char → List (List Char)
  | [] => [[]]
  | c :: cs =>
    match split mark cs with
    | [] => [[]]
    | part :: parts => if c = mark then [] :: part :: parts else (c :: part) :: parts

end IdlGen.Text
