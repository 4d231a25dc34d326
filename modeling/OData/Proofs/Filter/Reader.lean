import Mathlib
import OData.Proofs.Filter.Expression

namespace OData

namespace Expression

/-- A word and the text behind it; `quoted` tells whether a quote is open. -/
def readWord : (quoted : Bool) → Text → Text × Text
  | _, [] => ([], [])
  | quoted, c :: rest =>
    if !quoted && isDelimiter c then ([], c :: rest)
    else
      let (word, tail) := readWord (quoted != (c == '\'')) rest
      (c :: word, tail)

/-- The text behind a mark that has to come. -/
def readMark (mark : Char) : Text → Option Text
  | [] => none
  | c :: rest => if c = mark then some rest else none

/-- The connectives that stand between operands; a path step is none of them. -/
def infixes : List Connective := [.and, .or, .within] ++ BinaryOperator.all.map .operator

def readConnective (text : Text) : Option (Connective × Text) := do
  let rest ← readMark ' ' text
  let (word, rest) := readWord false rest
  let connective ← infixes.find? fun connective => connective.text = ' ' :: word ++ [' ']
  let rest ← readMark ' ' rest
  return (connective, rest)

/-- A word cut at its last slash: the path, if there is one, and what is called. -/
def splitCallee : Text → Option Text × Text
  | [] => (none, [])
  | c :: rest =>
    match splitCallee rest with
    | (some path, callee) => (some (c :: path), callee)
    | (none, callee) => if c = '/' then (some [], callee) else (none, c :: callee)

def located : Option Text → Expression → Expression
  | none, target => target
  | some path, target => .step path target

/-- An operand as it was read. -/
structure Piece where
  grouped : Bool
  expression : Expression

/-- Whether the piece may stand beside a connective: chains in parentheses, all else without. -/
def Piece.isOperand (piece : Piece) : Bool := piece.grouped == piece.expression.isChain

def readValues : (fuel : Nat) → Text → Option (List Text × Text)
  | 0, _ => none
  | fuel + 1, text =>
    match readMark ')' text with
    | some rest => some ([], rest)
    | none => do
      let rest ← readMark ',' text
      let rest ← readMark ' ' rest
      let (word, rest) := readWord false rest
      let (words, rest) ← readValues fuel rest
      return (word :: words, rest)

mutual

/-- One level of the text: one operand, or operands with one and the same connective between
them. No connective takes precedence over another. -/
def readLevel : (fuel : Nat) → Text → Option (Expression × Text)
  | 0, _ => none
  | fuel + 1, text => do
    let (first, rest) ← readPiece fuel text
    match readConnective rest with
    | none => if first.grouped then none else some (first.expression, rest)
    | some (connective, rest) =>
      if first.isOperand then do
        let (others, rest) ← readOperands fuel connective rest
        return (.chain connective (first.expression :: others), rest)
      else none

/-- The operands behind a connective, which no other may follow on this level. -/
def readOperands : (fuel : Nat) → Connective → Text → Option (List Expression × Text)
  | 0, _, _ => none
  | fuel + 1, connective, text => do
    let (piece, rest) ← readPiece fuel text
    if piece.isOperand then
      match readConnective rest with
      | none => return ([piece.expression], rest)
      | some (next, rest) =>
        if next = connective then do
          let (others, rest) ← readOperands fuel connective rest
          return (piece.expression :: others, rest)
        else none
    else none

/-- An operand: parentheses around a chain or around values, a call, or a word. Quotes hide
everything between them. -/
def readPiece : (fuel : Nat) → Text → Option (Piece × Text)
  | 0, _ => none
  | fuel + 1, text =>
    match readMark '(' text with
    | some inner => do
      let (expression, rest) ← readLevel fuel inner
      match expression with
      | .leaf first => do
        let (others, rest) ← readValues fuel rest
        return (⟨false, .values (first :: others)⟩, rest)
      | expression => do
        let rest ← readMark ')' rest
        if expression.isChain then return (⟨true, expression⟩, rest) else none
    | none =>
      let (word, rest) := readWord false text
      match readMark '(' rest with
      | some inner => do
        let (expression, rest) ← readCall fuel word inner
        return (⟨false, expression⟩, rest)
      | none => if word = [] then none else some (⟨false, .leaf word⟩, rest)

/-- What stands in the parentheses behind a word. -/
def readCall : (fuel : Nat) → Text → Text → Option (Expression × Text)
  | 0, _, _ => none
  | fuel + 1, word, text =>
    let (path, callee) := splitCallee word
    match [Quantifier.any, .all].find? fun quantifier => quantifier.name.toList = callee with
    | some quantifier => do
      let (binder, rest) := readWord false text
      let rest ← readMark ':' rest
      let (body, rest) ← readLevel fuel rest
      let rest ← readMark ')' rest
      return (located path (.lambda quantifier binder body), rest)
    | none =>
      if callee = "$count".toList then do
        let rest ← Text.dropBeginning? "$filter=".toList text
        let (filter, rest) ← readLevel fuel rest
        let rest ← readMark ')' rest
        return (.count word filter, rest)
      else
        match readMark ')' text with
        | some rest => some (located path (.call callee []), rest)
        | none => do
          let (arguments, rest) ← readArguments fuel text
          return (located path (.call callee arguments), rest)

def readArguments : (fuel : Nat) → Text → Option (List Expression × Text)
  | 0, _ => none
  | fuel + 1, text => do
    let (first, rest) ← readLevel fuel text
    match readMark ')' rest with
    | some rest => return ([first], rest)
    | none => do
      let rest ← readMark ',' rest
      let (others, rest) ← readArguments fuel rest
      return (first :: others, rest)

end

/-- The expression that a whole text is. -/
def read? (text : Text) : Option Expression := do
  let (expression, rest) ← readLevel (4 * text.length + 2) text
  if rest = [] then return expression else none

end Expression

end OData
