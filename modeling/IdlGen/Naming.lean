import IdlGen.Text.Affix
import IdlGen.Text.Case

/-!
# Forms of a name

Conversions between `UpperCamel`, `lowerCamel` and `snake_case`. A snake-case name has a bar at each
boundary between words: before a capital that follows a small letter, possibly with digits after
it, and before the last of several capitals that a small letter follows.
-/

namespace IdlGen.Naming

/-- The name with its first character in capitals. -/
def capitalize (s : String) : String :=
  match s.toList with
  | [] => ""
  | c :: rest => String.ofList (Text.upperChar c ++ rest)

/-- The name with its first character in small letters. -/
def decapitalize (s : String) : String :=
  match s.toList with
  | [] => ""
  | c :: rest => String.ofList (Text.lowerChar c ++ rest)

/-- The parts of a name between its bars. -/
def parts (s : String) : List String := (Text.split '_' s.toList).map String.ofList

/-- `object_id` to `ObjectId`. -/
def upperCamel (s : String) : String := String.join ((parts s).map capitalize)

/-- `object_id` to `objectId`. -/
def lowerCamel (s : String) : String :=
  match parts s with
  | [] => ""
  | first :: rest => decapitalize first ++ String.join (rest.map capitalize)

def isSmall (c : Char) : Bool := 'a' ≤ c && c ≤ 'z'

def isCapital (c : Char) : Bool := 'A' ≤ c && c ≤ 'Z'

def isDigit (c : Char) : Bool := '0' ≤ c && c ≤ '9'

/-- Bars between a small letter and a capital. `armed` says whether a small letter, with nothing but
digits after it, stands right before. -/
def splitSmall (armed : Bool) : List Char → List Char
  | [] => []
  | c :: rest =>
    let next := isSmall c || (armed && isDigit c)
    if armed && isCapital c then '_' :: c :: splitSmall next rest
    else c :: splitSmall next rest

/-- Bars before the last of several capitals that a small letter follows. `armed` says whether a
capital stands right before. -/
def splitCapitals (armed : Bool) : List Char → List Char
  | [] => []
  | c :: rest =>
    if armed && isCapital c && rest.head?.any isSmall then
      '_' :: c :: splitCapitals (isCapital c) rest
    else c :: splitCapitals (isCapital c) rest

/-- `MyHTMLParser` to `my_html_parser`. -/
def snake (s : String) : String :=
  Text.toLower (String.ofList (splitCapitals false (splitSmall false s.toList)))

/-- The most spaces that fill up a column. -/
def maxPadding : Nat := 64

/-- The number of spaces that bring a text up to a width; at least one. -/
def padding (s : String) (width : Nat) : Nat := max 1 (min maxPadding (width - s.length))

end IdlGen.Naming
