import Mathlib
import OData.Filter.Term
import OData.Proofs.Text.Alphabet

namespace OData

/-- The marks that end a word where no quote is open. -/
def isDelimiter (c : Char) : Bool := [' ', ',', '(', ')', ':'].contains c

namespace Text

/-- Whether every delimiter in a text stands between quotes and the last quote is closed; `quoted`
tells whether a quote is open in front of the text. A quote that is written twice closes and opens. -/
def isClosed : (quoted : Bool) → Text → Bool
  | quoted, [] => !quoted
  | quoted, c :: rest => (quoted || !isDelimiter c) && isClosed (quoted != (c == '\'')) rest

/-- A text that is read as one piece: a name, a path or a literal. -/
def IsWord (text : Text) : Prop := text ≠ [] ∧ isClosed false text = true

theorem isClosed_append {text : Text} (other : Text) {quoted : Bool}
    (closed : isClosed quoted text = true) :
    isClosed quoted (text ++ other) = isClosed false other := by
  induction text generalizing quoted with
  | nil =>
    have outside : quoted = false := by simpa [isClosed] using closed
    rw [outside, List.nil_append]
  | cons c rest ih =>
    simp only [isClosed, Bool.and_eq_true] at closed
    simp only [List.cons_append, isClosed, closed.1, Bool.true_and, ih closed.2]

theorem isDelimiter_of_isInert {c : Char} (inert : isInert c = true) :
    isDelimiter c = false ∧ c ≠ '\'' := by
  constructor
  · by_contra delimiter
    simp only [isDelimiter, Bool.not_eq_false, List.contains_iff_mem, List.mem_cons,
      List.not_mem_nil, or_false] at delimiter
    rcases delimiter with rfl | rfl | rfl | rfl | rfl <;> exact absurd inert (by decide)
  · rintro rfl
    exact absurd inert (by decide)

theorem Inert.isClosed {text : Text} (inert : Inert text) : isClosed false text = true := by
  induction text with
  | nil => rfl
  | cons c rest ih =>
    rw [inert_cons] at inert
    obtain ⟨plain, noQuote⟩ := isDelimiter_of_isInert inert.1
    have outside : (c == '\'') = false := by simpa using noQuote
    simp only [Text.isClosed, plain, outside, ih inert.2, Bool.not_false, Bool.or_true,
      Bool.true_and, bne_self_eq_false]

theorem Inert.isWord {text : Text} (inert : Inert text) (nonempty : text ≠ []) : IsWord text :=
  ⟨nonempty, inert.isClosed⟩

end Text

/-- A filter expression. Words are kept as they are written. No parentheses are kept: the text
has them exactly around the chains that are operands, so that every level of it shows one
connective. -/
inductive Expression
  /-- a literal, a reference or a path -/
  | leaf (text : Text)
  /-- the literals behind `in` -/
  | values (texts : List Text)
  /-- operands with the same connective between all neighbours -/
  | chain (connective : Connective) (operands : List Expression)
  /-- a call at the end of a path -/
  | step (path : Text) (target : Expression)
  | call (callee : Text) (arguments : List Expression)
  | lambda (quantifier : Quantifier) (binder : Text) (body : Expression)
  /-- the count of the elements that a filter lets through -/
  | count (path : Text) (filter : Expression)

namespace Expression

/-- Whether the expression is put in parentheses where it is an operand. -/
def isChain : Expression → Bool
  | .chain _ _ | .step _ _ => true
  | _ => false

/-- Whether the expression may follow a path. -/
def isCall : Expression → Bool
  | .call _ _ | .lambda _ _ _ => true
  | _ => false

mutual

def bare : Expression → Text
  | .leaf text => text
  | .values texts => '(' :: Text.join ", ".toList texts ++ [')']
  | .chain connective operands => Text.join connective.text (groupedTexts operands)
  | .step path target => path ++ '/' :: target.bare
  | .call callee arguments => callee ++ '(' :: (Text.join [','] (bareTexts arguments) ++ [')'])
  | .lambda quantifier binder body =>
    quantifier.name.toList ++ '(' :: (binder ++ ':' :: (body.bare ++ [')']))
  | .count path filter => path ++ '(' :: ("$filter=".toList ++ (filter.bare ++ [')']))

def bareTexts : List Expression → List Text
  | [] => []
  | expression :: rest => expression.bare :: bareTexts rest

def groupedTexts : List Expression → List Text
  | [] => []
  | expression :: rest =>
    (if expression.isChain then '(' :: expression.bare ++ [')'] else expression.bare) ::
      groupedTexts rest

end

/-- The expression as a compiled piece. -/
def term (expression : Expression) : Term :=
  if expression.isChain then .chain expression.bare else .atom expression.bare

/-- The text of an expression that is an operand. -/
def grouped (expression : Expression) : Text := expression.term.grouped

@[simp] theorem bare_term (expression : Expression) : expression.term.bare = expression.bare := by
  unfold term
  split <;> rfl

theorem grouped_of_isChain {expression : Expression} (chain : expression.isChain = true) :
    expression.grouped = '(' :: expression.bare ++ [')'] := by
  simp only [grouped, term, chain, if_true, Term.grouped]

theorem grouped_of_not_isChain {expression : Expression} (atom : expression.isChain = false) :
    expression.grouped = expression.bare := by
  simp only [grouped, term, atom, Bool.false_eq_true, if_false, Term.grouped]

theorem bareTexts_eq_map (expressions : List Expression) :
    bareTexts expressions = expressions.map bare := by
  induction expressions with
  | nil => rfl
  | cons expression rest ih => rw [bareTexts, List.map_cons, ih]

theorem groupedTexts_eq_map (expressions : List Expression) :
    groupedTexts expressions = expressions.map grouped := by
  induction expressions with
  | nil => rfl
  | cons expression rest ih =>
    rw [groupedTexts, List.map_cons, ih]
    cases chain : expression.isChain
    · simp [grouped_of_not_isChain chain]
    · simp [grouped_of_isChain chain]

/-- Operands joined by a connective; an operand alone is itself. -/
def joined (connective : Connective) : List Expression → Expression
  | [expression] => expression
  | expressions => .chain connective expressions

/-- An expression bound to a navigation path, of which there may be none. -/
def bound (path : List String) (connective : Connective) (expression : Expression) : Expression :=
  match path, connective with
  | [], _ => expression
  | _ :: _, .step => .step (Uri.encodePath path) expression
  | _ :: _, connective => .chain connective [.leaf (Uri.encodePath path), expression]

/-- Joining compiled pieces and joining expressions are the same. -/
theorem term_joined (connective : Connective) (expressions : List Expression) :
    Term.join connective (expressions.map term) = (joined connective expressions).term := by
  have several : ∀ operands : List Expression,
      Term.chain (Text.join connective.text ((operands.map term).map Term.grouped)) =
        (Expression.chain connective operands).term := by
    intro operands
    have grouping : (operands.map term).map Term.grouped = operands.map grouped := List.map_map
    simp only [term, isChain, if_true, bare, groupedTexts_eq_map, grouping]
  match expressions with
  | [] => exact several []
  | [expression] => rfl
  | first :: second :: rest => exact several (first :: second :: rest)

/-- Binding a compiled piece and binding an expression are the same; only calls follow a path as its
next step. -/
theorem term_bound (path : List String) {connective : Connective} {expression : Expression}
    (stepsToCall : connective = .step → expression.isCall = true) :
    expression.term.bind path connective = (bound path connective expression).term := by
  cases path with
  | nil => rfl
  | cons first rest =>
    cases connective with
    | step =>
      have atom : expression.isChain = false := by
        have call := stepsToCall rfl
        cases expression <;> first | rfl | exact Bool.noConfusion call
      have left : expression.term.bind (first :: rest) .step =
          .chain (Uri.encodePath (first :: rest) ++ Connective.step.text ++ expression.grouped) := rfl
      rw [left, grouped_of_not_isChain atom, List.append_assoc]
      rfl
    | and | or | within | operator op =>
      simp [Term.bind, bound, term, isChain, bare, groupedTexts_eq_map, grouped, Text.join,
        Term.grouped]

end Expression

end OData
