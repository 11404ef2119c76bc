/-!
# Texts inside markup

Characters that mean something in a markup document are written by reference.
-/

namespace IdlGen.Text

/-- One character of a text that stands inside markup. -/
def markupChar (c : Char) : List Char :=
  match c with
  | '&' => ['&', 'a', 'm', 'p', ';']
  | '<' => ['&', 'l', 't', ';']
  | '>' => ['&', 'g', 't', ';']
  | '"' => ['&', 'q', 'u', 'o', 't', ';']
  | '\'' => ['&', '#', 'x', '2', '7', ';']
  | '/' => ['&', '#', 'x', '2', 'f', ';']
  | c => [c]

/-- The text as it stands inside markup. -/
def escapeMarkup (s : String) : String := String.ofList (s.toList.flatMap markupChar)

end IdlGen.Text
