import OData.Text

namespace OData.Yaml

/-- Line ends. Of these the separators of lines and paragraphs stand for themselves when lines are
joined. -/
def isBreak (c : Char) : Bool := c = '\n' || c.toNat = 0x2028 || c.toNat = 0x2029

def isBlank (c : Char) : Bool := c = ' ' || c = '\t'

/-- What words end at. -/
def isGap (c : Char) : Bool := isBlank c || isBreak c

/-- Characters of names: of anchors, handles and directives. -/
def isNameChar (c : Char) : Bool := c.isAlphanum || c = '_' || c = '-'

/-- Brackets and the comma, which end a word between brackets. -/
def isFlowIndicator (c : Char) : Bool := ",[]\x7b\x7d".toList.contains c

def isPermitted (c : Char) : Bool :=
  let n := c.toNat
  n = 9 || n = 10 || n = 13 || (0x20 ≤ n && n ≤ 0x7E) || n = 0x85 || (0xA0 ≤ n && n ≤ 0xD7FF) ||
    (0xE000 ≤ n && n ≤ 0xFFFD) || 0x10000 ≤ n

/-- The text with a line feed for every line end that does not stand for itself. -/
def withLineFeeds : Text → Text
  | [] => []
  | '\r' :: '\n' :: rest => '\n' :: withLineFeeds rest
  | c :: rest => (if c = '\r' ∨ c.toNat = 0x85 then '\n' else c) :: withLineFeeds rest

structure Cursor where
  rest : Text
  line : Nat := 0
  column : Nat := 0
deriving DecidableEq, Repr

namespace Cursor

def next (cursor : Cursor) : Cursor :=
  match cursor.rest with
  | [] => cursor
  | c :: rest =>
    if isBreak c then ⟨rest, cursor.line + 1, 0⟩ else ⟨rest, cursor.line, cursor.column + 1⟩

def advance (cursor : Cursor) : (count : Nat) → Cursor
  | 0 => cursor
  | count + 1 => cursor.next.advance count

def ahead (cursor : Cursor) (p : Char → Bool) : Text := cursor.rest.takeWhile p

def skip (cursor : Cursor) (p : Char → Bool) : Cursor := cursor.advance (cursor.ahead p).length

def endsWord : Text → Bool
  | [] => true
  | c :: _ => isGap c

/-- Whether three characters stand here at the front of a line, alone. -/
def isMarked (cursor : Cursor) (mark : String) : Bool :=
  cursor.column = 0 && cursor.rest.take 3 = mark.toList && endsWord (cursor.rest.drop 3)

/-- Whether a document starts or ends here. -/
def isBoundary (cursor : Cursor) : Bool := cursor.isMarked "---" || cursor.isMarked "..."

/-- The place behind the rest of a line that holds nothing but blanks and a comment, at its line
end. -/
def lineEnd? (cursor : Cursor) : Option Cursor :=
  let cursor := cursor.skip isBlank
  let cursor := if cursor.rest.head? = some '#' then cursor.skip (!isBreak ·) else cursor
  match cursor.rest with
  | [] => some cursor
  | c :: _ => if isBreak c then some cursor else none

end Cursor

end OData.Yaml
