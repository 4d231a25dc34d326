import OData.Text

namespace OData

/-- A template cut into single characters and placeholders. -/
inductive TemplatePiece
  | char (c : Char)
  | placeholder (name : Text)
deriving DecidableEq, Repr

namespace TemplatePiece

def text : TemplatePiece → Text
  | .char c => [c]
  | .placeholder name => '$' :: name

/-- Cuts a template from the left. A placeholder is `$` with all the letters and digits behind it,
of which there is at least one. -/
def ofTemplate : Text → List TemplatePiece
  | [] => []
  | c :: rest =>
    let name := rest.takeWhile Char.isAlphanum
    if c = '$' ∧ name ≠ [] then .placeholder name :: ofTemplate (rest.dropWhile Char.isAlphanum)
    else .char c :: ofTemplate rest
termination_by template => template.length
decreasing_by
  · simp only [List.length_cons]
    have := (List.dropWhile_sublist Char.isAlphanum (l := rest)).length_le
    omega
  · simp

end TemplatePiece

/-- The template with each placeholder that has a binding replaced by it. All are replaced at once:
the text that a parameter brings is not looked at again. -/
def substitute (binding : Text → Option Text) (template : Text) : Text :=
  (TemplatePiece.ofTemplate template).flatMap fun
    | .char c => [c]
    | .placeholder name => (binding name).getD ('$' :: name)

end OData
