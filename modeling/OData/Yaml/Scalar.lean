import OData.Json.Reader
import OData.Yaml.Cursor

namespace OData.Yaml

/-- What a gap inside a scalar becomes. A single line end becomes a space, of several the first is
dropped, and a gap without one stays as it is. -/
def folded (gap : Text) : Text :=
  match gap.filter isBreak with
  | [] => gap
  | ['\n'] => [' ']
  | '\n' :: more => more
  | breaks => breaks

def escaped? : Char → Option Char
  | '0' => some (Char.ofNat 0)
  | 'a' => some (Char.ofNat 7)
  | 'v' => some (Char.ofNat 11)
  | 'e' => some (Char.ofNat 27)
  | ' ' => some ' '
  | '\t' => some '\t'
  | 'N' => some (Char.ofNat 0x85)
  | '_' => some (Char.ofNat 0xA0)
  | 'L' => some (Char.ofNat 0x2028)
  | 'P' => some (Char.ofNat 0x2029)
  | c => Json.Reader.escaped? c

def escapeWidth? : Char → Option Nat
  | 'x' => some 2
  | 'u' => some 4
  | 'U' => some 8
  | _ => none

def hexNumber? (digits : Text) : Option Nat :=
  digits.foldlM (fun n c => (Json.Reader.hexValue? c).map (16 * n + ·)) 0

def hexChar? (width : Nat) (text : Text) : Option Char := do
  let digits := text.take width
  let code ← hexNumber? digits
  if digits.length = width ∧ code.isValidChar then some (Char.ofNat code) else none

def doubleQuoted? : (fuel : Nat) → Cursor → Option (Text × Cursor)
  | 0, _ => none
  | fuel + 1, cursor =>
    let goOn (chars : Text) (cursor : Cursor) : Option (Text × Cursor) :=
      (doubleQuoted? fuel cursor).map fun (more, behind) => (chars ++ more, behind)
    if cursor.isBoundary then none
    else match cursor.rest with
      | [] => none
      | '"' :: _ => some ([], cursor.next)
      | '\\' :: letter :: rest =>
        if isBreak letter then
          let behind := cursor.advance 2
          goOn ((behind.ahead isGap).filter isBreak) (behind.skip isGap)
        else match escapeWidth? letter with
          | some width => do goOn [← hexChar? width rest] (cursor.advance (2 + width))
          | none => do goOn [← escaped? letter] (cursor.advance 2)
      | c :: _ =>
        if isGap c then goOn (folded (cursor.ahead isGap)) (cursor.skip isGap)
        else goOn [c] cursor.next

/-- A scalar between single quotes, in which a quote is written twice. -/
def singleQuoted? : (fuel : Nat) → Cursor → Option (Text × Cursor)
  | 0, _ => none
  | fuel + 1, cursor =>
    let goOn (chars : Text) (cursor : Cursor) : Option (Text × Cursor) :=
      (singleQuoted? fuel cursor).map fun (more, behind) => (chars ++ more, behind)
    if cursor.isBoundary then none
    else match cursor.rest with
      | [] => none
      | '\'' :: '\'' :: _ => goOn ['\''] (cursor.advance 2)
      | '\'' :: _ => some ([], cursor.next)
      | c :: _ =>
        if isGap c then goOn (folded (cursor.ahead isGap)) (cursor.skip isGap)
        else goOn [c] cursor.next

/-- The word at the front of a text, up to a gap or to a colon that makes it a key. Between brackets
it also ends at brackets and commas, and a colon in front of one of these is a mistake. -/
def word? (inFlow : Bool) : Text → Option Text
  | [] => some []
  | c :: rest =>
    if isGap c then some []
    else if c = ':' && inFlow && (rest.head?.map fun d => isFlowIndicator d || d = '?').getD false
      then none
    else if c = ':' && Cursor.endsWord rest then some []
    else if inFlow && isFlowIndicator c then some []
    else (word? inFlow rest).map (c :: ·)

/-- Whether no tab in a gap, behind its first line end, stands in a column before `least`. -/
def tabsFit (least : Nat) : (broken : Bool) → (column : Nat) → (gap : Text) → Bool
  | _, _, [] => true
  | broken, column, c :: rest =>
    if isBreak c then tabsFit least true 0 rest
    else !(broken && c = '\t' && column < least) && tabsFit least broken (column + 1) rest

structure Plain where
  text : Text
  /-- Whether a line ends between the scalar and the place behind it. -/
  endsLine : Bool
  behind : Cursor

/-- A scalar without quotes whose further lines start in the column `least` or behind it; `gap` is
what stands in front of the place. -/
def plain? (inFlow : Bool) (least : Nat) : (fuel : Nat) → (gap : Text) → Cursor → Option Plain
  | 0, _, _ => none
  | fuel + 1, gap, cursor =>
    let ended : Plain := ⟨[], gap.any isBreak, cursor⟩
    if cursor.isBoundary || cursor.rest.head? = some '#' then some ended
    else do
      let word ← word? inFlow cursor.rest
      if word.isEmpty then return ended
      let behind := cursor.advance word.length
      let space := behind.ahead isGap
      let after := behind.skip isGap
      let text := folded gap ++ word
      if space.isEmpty then return ⟨text, false, behind⟩
      if !tabsFit least false behind.column space then none
      if !inFlow && after.column < least then return ⟨text, space.any isBreak, after⟩
      let more ← plain? inFlow least fuel space after
      return { more with text := text ++ more.text }

/-- What becomes of the line ends behind a block: all go, one stays, or all stay. -/
inductive Chomping
  | strip
  | clip
  | keep
deriving DecidableEq, Repr

def Chomping.ofChar? : Char → Option Chomping
  | '-' => some .strip
  | '+' => some .keep
  | _ => none

/-- How many columns a block is indented further, where it says so. -/
def indentation? (c : Char) : Option Nat :=
  if c.isDigit ∧ c ≠ '0' then some (Json.Reader.digitValue c) else none

def blockHeader : Text → Chomping × Option Nat × Nat
  | [] => (.clip, none, 0)
  | c :: rest =>
    match Chomping.ofChar? c, indentation? c with
    | some chomping, _ =>
      match rest.head?.bind indentation? with
      | some width => (chomping, some width, 2)
      | none => (chomping, none, 1)
    | none, some width =>
      match rest.head?.bind Chomping.ofChar? with
      | some chomping => (chomping, some width, 2)
      | none => (.clip, some width, 1)
    | none, none => (.clip, none, 0)

/-- The line ends of empty lines, the deepest column that spaces reach, and the place of the next
text. A block of width `some width` starts in that column; until its width is known all spaces are
skipped. A tab cannot stand for the spaces. -/
def emptyLines? (width : Option Nat) :
    (fuel deepest : Nat) → Cursor → Option (Text × Nat × Cursor)
  | 0, _, _ => none
  | fuel + 1, deepest, cursor =>
    let spaces := (cursor.ahead (· = ' ')).length
    let cursor := cursor.advance ((width.map fun width => min spaces (width - cursor.column)).getD
      spaces)
    let deepest := max deepest cursor.column
    let isShort : Bool := (width.map fun width => decide (cursor.column < width)).getD true
    match cursor.rest with
    | [] => some ([], deepest, cursor)
    | c :: _ =>
      if isShort && c = '\t' then none
      else if isBreak c then
        (emptyLines? width fuel deepest cursor.next).map fun (more, found) => (c :: more, found)
      else some ([], deepest, cursor)

structure Block where
  text : Text
  lineEnd : Text
  emptyLines : Text
  behind : Cursor

/-- The lines of a block that starts in the column `width`, given what stands in front of them: the
end of the line before, empty lines, and whether the line before starts with a blank. Where lines
are folded, this spares the lines that start with a blank. -/
def blockLines? (folds : Bool) (width : Nat) :
    (fuel : Nat) → (lineEnd emptyLines : Text) → (isIndented : Bool) → Cursor → Option Block
  | 0, _, _, _, _ => none
  | fuel + 1, lineEnd, emptyLines, isIndented, cursor =>
    match cursor.rest with
    | [] => some ⟨[], lineEnd, emptyLines, cursor⟩
    | c :: _ =>
      if cursor.column ≠ width then some ⟨[], lineEnd, emptyLines, cursor⟩
      else do
        let joins := folds && lineEnd = ['\n'] && !isIndented && !isBlank c
        let front :=
          if !joins then lineEnd ++ emptyLines
          else if emptyLines.isEmpty then [' ']
          else emptyLines
        let line := cursor.ahead (!isBreak ·)
        let behind := cursor.advance line.length
        let (empty, _, next) ← emptyLines? (some width) (behind.rest.length + 1) 0 behind.next
        let more ← blockLines? folds width fuel (behind.rest.take 1) empty (isBlank c) next
        return { more with text := front ++ line ++ more.text }

/-- A block from behind its indicator, inside a collection whose content starts in the column
`least`, and the place behind it. -/
def block? (folds : Bool) (least : Nat) (cursor : Cursor) : Option (Text × Cursor) := do
  let (chomping, further, length) := blockHeader cursor.rest
  let start := (← (cursor.advance length).lineEnd?).next
  let fuel := cursor.rest.length + 1
  let (empty, deepest, first) ← emptyLines? (further.map (least - 1 + ·)) fuel 0 start
  let width := (further.map (least - 1 + ·)).getD (max (max deepest least) 1)
  let block ← blockLines? folds width fuel [] empty false first
  let ending := match chomping with
    | .strip => []
    | .clip => block.lineEnd
    | .keep => block.lineEnd ++ block.emptyLines
  return (block.text ++ ending, block.behind)

end OData.Yaml
