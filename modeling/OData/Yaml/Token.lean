import OData.Yaml.Scalar

namespace OData.Yaml

/-- A token. An anchor has a number, by which references find it. -/
inductive Token
  | version
  | tagHandle (handle meaning : Text)
  | documentStart
  | documentEnd
  | blockSequence
  | blockMapping
  | blockEnd
  | flowSequence
  | flowSequenceEnd
  | flowMapping
  | flowMappingEnd
  | item
  | separator
  | key
  | value
  | anchor (id : Nat)
  | reference (id : Nat)
  | tag (handle suffix : Text)
  | scalar (text : Text) (isPlain : Bool)
deriving DecidableEq, Repr

def anchorName? (cursor : Cursor) : Option (Text × Cursor) :=
  let name := cursor.ahead isNameChar
  let behind := cursor.advance name.length
  let ends := Cursor.endsWord behind.rest ||
    (behind.rest.head?.map ("?:,]\x7d%@`".toList.contains ·)).getD false
  if !name.isEmpty && ends then some (name, behind) else none

/-- Characters of tags; brackets and commas only between angle brackets. -/
def isTagChar (inAngles : Bool) (c : Char) : Bool :=
  isNameChar c || ";/?:@&=+$.%!~*'()".toList.contains c || (inAngles && ",[]".toList.contains c)

def octet? : Text → Option (Nat × Text)
  | '%' :: high :: low :: rest => do return (← hexNumber? [high, low], rest)
  | _ => none

/-- How many octets the encoding of a character has, given the first, and its part of the code. -/
def leadingOctet? (octet : Nat) : Option (Nat × Nat) :=
  if octet < 0x80 then some (1, octet)
  else if 0xC0 ≤ octet ∧ octet < 0xE0 then some (2, octet - 0xC0)
  else if 0xE0 ≤ octet ∧ octet < 0xF0 then some (3, octet - 0xE0)
  else if 0xF0 ≤ octet ∧ octet < 0xF8 then some (4, octet - 0xF0)
  else none

def furtherOctets? (code : Nat) : (count : Nat) → Text → Option Nat
  | 0, _ => some code
  | count + 1, text => do
    let (octet, rest) ← octet? text
    if octet / 64 = 2 then furtherOctets? (64 * code + octet % 64) count rest else none

/-- The tag at the front of a place, and the place behind it. A character may be written as the
escaped octets of its encoding. -/
def tagText? (inAngles : Bool) : (fuel : Nat) → Cursor → Option (Text × Cursor)
  | 0, _ => none
  | fuel + 1, cursor =>
    match cursor.rest with
    | [] => some ([], cursor)
    | c :: _ =>
      if !isTagChar inAngles c then some ([], cursor)
      else do
        let (char, length) ← if c ≠ '%' then some (c, 1) else do
          let (octet, rest) ← octet? cursor.rest
          let (count, code) ← leadingOctet? octet
          let code ← furtherOctets? code (count - 1) rest
          some (Char.ofNat code, 3 * count)
        let (more, behind) ← tagText? inAngles fuel (cursor.advance length)
        return (char :: more, behind)

/-- The handle of a tag from behind its exclamation mark: a name with a second mark, or nothing. -/
def namedHandle? (cursor : Cursor) : Option (Text × Cursor) :=
  let name := cursor.ahead isNameChar
  let behind := cursor.advance name.length
  if behind.rest.head? = some '!' then some ('!' :: name ++ ['!'], behind.next) else none

/-- A tag from its exclamation mark on: its handle, what is behind the handle, and the place behind
the tag. -/
def tag? (inFlow : Bool) (cursor : Cursor) : Option (Token × Cursor) := do
  let fuel := cursor.rest.length
  let mark := cursor.next
  let (handle, suffix, behind) ←
    if mark.rest.head? = some '<' then do
      let (text, behind) ← tagText? true fuel mark.next
      if text.isEmpty ∨ behind.rest.head? ≠ some '>' then none
      some ([], text, behind.next)
    else match namedHandle? mark with
      | some (handle, behind) => do
        let (text, behind) ← tagText? false fuel behind
        if text.isEmpty then none
        some (handle, text, behind)
      | none => do
        let name := mark.ahead isNameChar
        let (text, behind) ← tagText? false fuel (mark.advance name.length)
        let text := name ++ text
        if text.isEmpty then some ([], ['!'], behind) else some (['!'], text, behind)
  if Cursor.endsWord behind.rest || (inFlow && behind.rest.head? = some ',') then
    some (.tag handle suffix, behind)
  else none

/-- The number of a version, of at most nine digits. -/
def versionNumber? (cursor : Cursor) : Option (Nat × Cursor) :=
  let digits := cursor.ahead Char.isDigit
  if digits.isEmpty ∨ 9 < digits.length then none
  else some (Json.Reader.digitsValue digits, cursor.advance digits.length)

/-- A directive from behind its percent sign. The version is 1.1 or 1.2. -/
def directive? (cursor : Cursor) : Option (Token × Cursor) := do
  let name := cursor.ahead isNameChar
  let behind := cursor.advance name.length
  if !Cursor.endsWord behind.rest then none
  let start := behind.skip isBlank
  let (token, behind) ←
    if name = "YAML".toList then do
      let (major, point) ← versionNumber? start
      if point.rest.head? ≠ some '.' then none
      let (minor, behind) ← versionNumber? point.next
      if major = 1 ∧ (minor = 1 ∨ minor = 2) then some (Token.version, behind) else none
    else if name = "TAG".toList then do
      if start.rest.head? ≠ some '!' then none
      let (handle, behind) ← match namedHandle? start.next with
        | some found => some found
        | none =>
          if (start.next.ahead isNameChar).isEmpty then some (['!'], start.next) else none
      if !(behind.rest.head?.map isBlank).getD false then none
      let (meaning, behind) ← tagText? true cursor.rest.length (behind.skip isBlank)
      if meaning.isEmpty || !Cursor.endsWord behind.rest then none
      some (.tagHandle handle meaning, behind)
    else none
  return (token, (← behind.lineEnd?).next)

/-- A place at which a key may have started. That it is one shows only at the colon behind it, which
has to come in the same line and within 1024 characters. A key is required where a mapping goes
on. -/
structure PossibleKey where
  isRequired : Bool
  /-- How many tokens are in front of it. -/
  place : Nat
  line : Nat
  column : Nat
deriving DecidableEq, Repr

structure Scanner where
  cursor : Cursor
  /-- The tokens so far, the last one first. -/
  tokens : List Token := []
  /-- The first column of content inside the innermost block, which is one behind its
  indentation. -/
  least : Nat := 0
  /-- The same for the blocks around it. -/
  outerLeast : List Nat := []
  possibleKey : Option PossibleKey := none
  /-- The possible keys in front of the brackets that are open. -/
  outerKeys : List (Option PossibleKey) := []
  /-- Whether a key may start at the next token. -/
  allowsKey : Bool := true
  /-- The anchors with their numbers, the last one first. -/
  anchors : List (Text × Nat) := []
  /-- How many names of anchors there are. -/
  names : Nat := 0

namespace Scanner

/-- Whether brackets are open. Indentation means nothing between them. -/
def inFlow (scanner : Scanner) : Bool := !scanner.outerKeys.isEmpty

def push (scanner : Scanner) (token : Token) : Scanner :=
  { scanner with tokens := token :: scanner.tokens }

def advance (scanner : Scanner) (count : Nat) : Scanner :=
  { scanner with cursor := scanner.cursor.advance count }

def insert (scanner : Scanner) (place : Nat) (token : Token) : Scanner :=
  let later := scanner.tokens.length - place
  { scanner with tokens := scanner.tokens.take later ++ token :: scanner.tokens.drop later }

/-- Whether a key that may have started can still get its colon. -/
def isAlive (cursor : Cursor) (key : PossibleKey) : Bool :=
  key.line = cursor.line && cursor.column ≤ key.column + 1024

/-- Drops the possible key. A required one has to get its colon. -/
def dropKey? (scanner : Scanner) : Option Scanner :=
  if (scanner.possibleKey.map (·.isRequired)).getD false then none
  else some { scanner with possibleKey := none }

def dropStaleKeys? (scanner : Scanner) : Option Scanner :=
  let isStale (key : PossibleKey) : Bool := !isAlive scanner.cursor key
  let keys := scanner.possibleKey :: scanner.outerKeys
  if keys.any fun key => (key.map fun key => isStale key && key.isRequired).getD false then none
  else some { scanner with
    possibleKey := scanner.possibleKey.filter (!isStale ·)
    outerKeys := scanner.outerKeys.map (·.filter (!isStale ·)) }

/-- Notes that a key may start here. -/
def startKey? (scanner : Scanner) : Option Scanner :=
  if scanner.allowsKey then do
    let scanner ← scanner.dropKey?
    let column := scanner.cursor.column
    return { scanner with
      possibleKey := some {
        isRequired := !scanner.inFlow && scanner.least = column + 1
        place := scanner.tokens.length
        line := scanner.cursor.line
        column } }
  else some scanner

/-- The blocks that are left open, and the tokens with the ends of the others, when the blocks whose
content starts behind the column `least` end. -/
def closedBlocks (least : Nat) :
    (current : Nat) → (outer : List Nat) → List Token → Nat × List Nat × List Token
  | current, [], tokens => (current, [], tokens)
  | current, next :: outer, tokens =>
    if least < current then closedBlocks least next outer (.blockEnd :: tokens)
    else (current, next :: outer, tokens)

def closeBlocks (scanner : Scanner) (least : Nat) : Scanner :=
  if scanner.inFlow then scanner
  else
    let (current, outer, tokens) := closedBlocks least scanner.least scanner.outerLeast
      scanner.tokens
    { scanner with least := current, outerLeast := outer, tokens }

/-- Opens a block that is indented up to `column`, unless it is open, with its token behind the
first `place` tokens. -/
def openBlock (scanner : Scanner) (column place : Nat) (token : Token) : Scanner :=
  if !scanner.inFlow && scanner.least ≤ column then
    { scanner.insert place token with
      least := column + 1
      outerLeast := scanner.least :: scanner.outerLeast }
  else scanner

/-- Skips gaps and comments. A line end allows a key outside brackets, and where a key may start
there are no tabs. -/
def skipGaps (inFlow : Bool) : (fuel : Nat) → (allowsKey : Bool) → Cursor → Bool × Cursor
  | 0, allowsKey, cursor => (allowsKey, cursor)
  | fuel + 1, allowsKey, cursor =>
    let isByteOrderMark := cursor.column = 0 && cursor.rest.head? = some (Char.ofNat 0xFEFF)
    let cursor := if isByteOrderMark then cursor.next else cursor
    let cursor := cursor.skip fun c => c = ' ' || ((inFlow || !allowsKey) && c = '\t')
    let cursor := if cursor.rest.head? = some '#' then cursor.skip (!isBreak ·) else cursor
    match cursor.rest with
    | [] => (allowsKey, cursor)
    | c :: _ =>
      if isBreak c then skipGaps inFlow fuel (allowsKey || !inFlow) cursor.next
      else (allowsKey, cursor)

def toToken? (scanner : Scanner) : Option Scanner := do
  let (allowsKey, cursor) := skipGaps scanner.inFlow (scanner.cursor.rest.length + 1)
    scanner.allowsKey scanner.cursor
  let scanner ← { scanner with allowsKey, cursor }.dropStaleKeys?
  return scanner.closeBlocks (cursor.column + 1)

/-- Ends all blocks and drops the possible key, in front of what stands outside documents. -/
def leaveBlocks? (scanner : Scanner) : Option Scanner := do
  let scanner ← (scanner.closeBlocks 0).dropKey?
  return { scanner with allowsKey := false }

def openBracket? (scanner : Scanner) (token : Token) : Option Scanner := do
  let scanner ← scanner.startKey?
  return { scanner.push token with
    cursor := scanner.cursor.next
    possibleKey := none
    outerKeys := scanner.possibleKey :: scanner.outerKeys
    allowsKey := true }

def closeBracket? (scanner : Scanner) (token : Token) : Option Scanner := do
  let scanner ← scanner.dropKey?
  let (possibleKey, outerKeys) := match scanner.outerKeys with
    | [] => (none, [])
    | key :: outer => (key, outer)
  return { scanner.push token with
    cursor := scanner.cursor.next
    possibleKey
    outerKeys
    allowsKey := false }

def separator? (scanner : Scanner) : Option Scanner := do
  let scanner ← scanner.dropKey?
  return { scanner.push .separator with cursor := scanner.cursor.next, allowsKey := true }

def item? (scanner : Scanner) : Option Scanner := do
  if !scanner.inFlow && !scanner.allowsKey then none
  let scanner ← (scanner.openBlock scanner.cursor.column scanner.tokens.length
    .blockSequence).dropKey?
  return { scanner.push .item with cursor := scanner.cursor.next, allowsKey := true }

def key? (scanner : Scanner) : Option Scanner := do
  if !scanner.inFlow && !scanner.allowsKey then none
  let scanner ← (scanner.openBlock scanner.cursor.column scanner.tokens.length
    .blockMapping).dropKey?
  return { scanner.push .key with
    cursor := scanner.cursor.next
    allowsKey := !scanner.inFlow }

/-- A colon in front of a value. If a key may have started, it has, and it may open a mapping. -/
def value? (scanner : Scanner) : Option Scanner := do
  let scanner ← match scanner.possibleKey with
    | some key =>
      let scanner := (scanner.insert key.place .key).openBlock key.column key.place .blockMapping
      some { scanner with possibleKey := none, allowsKey := false }
    | none =>
      if !scanner.inFlow && !scanner.allowsKey then none
      else
        let scanner := scanner.openBlock scanner.cursor.column scanner.tokens.length .blockMapping
        some { scanner with allowsKey := !scanner.inFlow }
  return { scanner.push .value with cursor := scanner.cursor.next }

/-- An anchor. Its number is how many names there are so far, so that a name that is given again has
the number of the next new one. -/
def anchor? (scanner : Scanner) : Option Scanner := do
  let scanner ← scanner.startKey?
  let (name, cursor) ← anchorName? scanner.cursor.next
  let isNew := (scanner.anchors.lookup name).isNone
  return { scanner.push (.anchor scanner.names) with
    cursor
    anchors := (name, scanner.names) :: scanner.anchors
    names := if isNew then scanner.names + 1 else scanner.names
    allowsKey := false }

def reference? (scanner : Scanner) : Option Scanner := do
  let scanner ← scanner.startKey?
  let (name, cursor) ← anchorName? scanner.cursor.next
  return { scanner.push (.reference (← scanner.anchors.lookup name)) with
    cursor
    allowsKey := false }

def readTag? (scanner : Scanner) : Option Scanner := do
  let scanner ← scanner.startKey?
  let (token, cursor) ← tag? scanner.inFlow scanner.cursor
  return { scanner.push token with cursor, allowsKey := false }

def readDirective? (scanner : Scanner) : Option Scanner := do
  let scanner ← scanner.leaveBlocks?
  let (token, cursor) ← directive? scanner.cursor.next
  return { scanner.push token with cursor }

def boundary? (scanner : Scanner) (token : Token) : Option Scanner := do
  let scanner ← scanner.leaveBlocks?
  return (scanner.push token).advance 3

def readBlock? (scanner : Scanner) (folds : Bool) : Option Scanner := do
  let scanner ← scanner.dropKey?
  let (text, cursor) ← block? folds scanner.least scanner.cursor.next
  return { scanner.push (.scalar text false) with cursor, allowsKey := true }

def readQuoted? (scanner : Scanner) (isDouble : Bool) : Option Scanner := do
  let scanner ← scanner.startKey?
  let fuel := scanner.cursor.rest.length
  let (text, cursor) ← (if isDouble then doubleQuoted? else singleQuoted?) fuel scanner.cursor.next
  return { scanner.push (.scalar text false) with cursor, allowsKey := false }

def readPlain? (scanner : Scanner) : Option Scanner := do
  let scanner ← scanner.startKey?
  let plain ← plain? scanner.inFlow scanner.least scanner.cursor.rest.length [] scanner.cursor
  return { scanner.push (.scalar plain.text true) with
    cursor := plain.behind
    allowsKey := plain.endsLine }

def startsPlain (inFlow : Bool) (c : Char) (rest : Text) : Bool :=
  if c = '-' then !(rest.head?.map isBlank).getD false
  else if c = '?' || c = ':' then !inFlow && !Cursor.endsWord rest
  else !isGap c && !",[]\x7b\x7d#&*!|>'\"%@`".toList.contains c

def read? (scanner : Scanner) : Option Scanner :=
  match scanner.cursor.rest with
  | [] => none
  | c :: rest =>
    let isAlone := scanner.inFlow || Cursor.endsWord rest
    if scanner.cursor.column = 0 && c = '%' then scanner.readDirective?
    else if scanner.cursor.isMarked "---" then scanner.boundary? .documentStart
    else if scanner.cursor.isMarked "..." then scanner.boundary? .documentEnd
    else if c = '[' then scanner.openBracket? .flowSequence
    else if c = '\x7b' then scanner.openBracket? .flowMapping
    else if c = ']' then scanner.closeBracket? .flowSequenceEnd
    else if c = '\x7d' then scanner.closeBracket? .flowMappingEnd
    else if c = ',' then scanner.separator?
    else if c = '-' && Cursor.endsWord rest then scanner.item?
    else if c = '?' && isAlone then scanner.key?
    else if c = ':' && isAlone then scanner.value?
    else if c = '*' then scanner.reference?
    else if c = '&' then scanner.anchor?
    else if c = '!' then scanner.readTag?
    else if c = '|' && !scanner.inFlow then scanner.readBlock? false
    else if c = '>' && !scanner.inFlow then scanner.readBlock? true
    else if c = '\'' then scanner.readQuoted? false
    else if c = '"' then scanner.readQuoted? true
    else if startsPlain scanner.inFlow c rest then scanner.readPlain?
    else none

/-- The tokens from the scanner's place to the end. Each takes at least one character. -/
def tokens? : (fuel : Nat) → Scanner → Option (List Token)
  | 0, _ => none
  | fuel + 1, scanner => do
    let scanner ← scanner.toToken?
    if scanner.cursor.rest.isEmpty then return (← scanner.leaveBlocks?).tokens.reverse
    tokens? fuel (← scanner.read?)

end Scanner

def Token.ofText? (document : Text) : Option (List Token) :=
  if document.all isPermitted then
    let text := withLineFeeds document
    Scanner.tokens? (text.length + 1) { cursor := ⟨text, 0, 0⟩ }
  else none

end OData.Yaml
