import IdlGen.Text.CaseTable

/-!
# Changing case

Full case mapping: one character may become several. Small letters depend on their place in one
case only, the capital sigma, which becomes `ς` at the end of a word and `σ` elsewhere.
-/

namespace IdlGen.Text

/-- The image of a character: its expansion if it has one, or else where the runs send it. -/
def mapCase (expansions : List (Nat × List Nat)) (runs : List CaseRun) (c : Char) :
    List Char :=
  match expansions.lookup c.toNat with
  | some image => image.map Char.ofNat
  | none => [((runs.findSome? (·.image? c.toNat)).map Char.ofNat).getD c]

/-- The capital form of a character. -/
def upperChar : Char → List Char := mapCase upperExpansions upperRuns

/-- The small form of a character, wherever it stands. -/
def lowerChar : Char → List Char := mapCase lowerExpansions lowerRuns

/-- Whether the first character that is not ignorable for case is cased. -/
def reachesCased (cs : List Char) : Bool :=
  (cs.dropWhile caseIgnorableRanges.covers).head?.any casedRanges.covers

/-- Lowers a text whose characters before it, nearest first, are given. -/
def lowerAfter (before : List Char) : List Char → List Char
  | [] => []
  | c :: rest =>
    let image :=
      if c = 'Σ' then
        [if reachesCased before && !reachesCased rest then 'ς' else 'σ']
      else lowerChar c
    image ++ lowerAfter (c :: before) rest

/-- The text in capital letters. -/
def toUpper (s : String) : String := String.ofList (s.toList.flatMap upperChar)

/-- The text in small letters. -/
def toLower (s : String) : String := String.ofList (lowerAfter [] s.toList)

end IdlGen.Text
