import Mathlib
import OData.Proofs.Filter.Reader

namespace OData.Expression

open Text

/-- Words that are not names of calls where a parenthesis follows them. -/
def reservedCallees : List Text := ["any".toList, "all".toList, "$count".toList]

/-- The name of a call: one step of a path, and none with a syntax of its own. -/
def IsCallee (callee : Text) : Prop :=
  IsWord callee ∧ '/' ∉ callee ∧ callee ∉ reservedCallees

mutual

/-- What the reader relies on: words are words, chains have neighbours, and a path leads to a call. -/
def WellFormed : Expression → Prop
  | .leaf text => IsWord text
  | .values texts => texts ≠ [] ∧ ∀ text ∈ texts, IsWord text
  | .chain connective operands =>
    connective ≠ .step ∧ 2 ≤ operands.length ∧ ListWellFormed operands
  | .step path target => IsWord path ∧ target.isCall = true ∧ target.WellFormed
  | .call callee arguments => IsCallee callee ∧ ListWellFormed arguments
  | .lambda _ binder body => IsWord binder ∧ body.WellFormed
  | .count path filter =>
    IsWord path ∧ (splitCallee path).2 = "$count".toList ∧ filter.WellFormed

def ListWellFormed : List Expression → Prop
  | [] => True
  | expression :: rest => expression.WellFormed ∧ ListWellFormed rest

end

def EndsLevel (rest : Text) : Prop := ∀ c ∈ rest.head?, c = ')' ∨ c = ','

def EndsPiece (rest : Text) : Prop := ∀ c ∈ rest.head?, c = ' ' ∨ c = ')' ∨ c = ','

theorem EndsLevel.endsPiece {rest : Text} (ends : EndsLevel rest) : EndsPiece rest :=
  fun c first => Or.inr (ends c first)

theorem endsLevel_nil : EndsLevel [] := by simp [EndsLevel]

theorem endsLevel_closing (rest : Text) : EndsLevel (')' :: rest) := by simp [EndsLevel]

theorem endsLevel_comma (rest : Text) : EndsLevel (',' :: rest) := by simp [EndsLevel]

/-- Exactly the chains are written in parentheses, so what is written may stand as it is read. -/
theorem isOperand_self (expression : Expression) :
    (Piece.mk expression.isChain expression).isOperand = true := beq_self_eq_true _

@[simp] theorem readMark_self (mark : Char) (rest : Text) :
    readMark mark (mark :: rest) = some rest := if_pos rfl

theorem readMark_of_head_ne {mark : Char} {text : Text} (other : ∀ c ∈ text.head?, c ≠ mark) :
    readMark mark text = none := by
  cases text with
  | nil => rfl
  | cons c rest => exact if_neg (other c rfl)

/-- A word ends where a delimiter follows it. -/
theorem readWord_append {word rest : Text} {quoted : Bool} (closed : isClosed quoted word = true)
    (ends : ∀ c ∈ rest.head?, isDelimiter c = true) :
    readWord quoted (word ++ rest) = (word, rest) := by
  induction word generalizing quoted with
  | nil =>
    have outside : quoted = false := by simpa [isClosed] using closed
    subst outside
    cases rest with
    | nil => rfl
    | cons c rest => simp [readWord, ends c rfl]
  | cons c word ih =>
    simp only [isClosed, Bool.and_eq_true, Bool.or_eq_true, Bool.not_eq_true'] at closed
    have inside : (!quoted && isDelimiter c) = false := by
      rcases closed.1 with isQuoted | plain
      · simp [isQuoted]
      · simp [plain]
    simp only [List.cons_append, readWord, inside, Bool.false_eq_true, if_false, ih closed.2]

theorem isDelimiter_of_endsPiece {rest : Text} (ends : EndsPiece rest) :
    ∀ c ∈ rest.head?, isDelimiter c = true := by
  intro c first
  rcases ends c first with rfl | rfl | rfl <;> rfl

/-- A word does not begin with a delimiter. -/
theorem head_of_isWord {word : Text} (isWord : IsWord word) (rest : Text) :
    ∀ c ∈ (word ++ rest).head?, isDelimiter c = false := by
  obtain ⟨nonempty, closed⟩ := isWord
  obtain ⟨first, others, rfl⟩ := List.exists_cons_of_ne_nil nonempty
  simp only [isClosed, Bool.false_or, Bool.and_eq_true, Bool.not_eq_true'] at closed
  rintro c ⟨⟩
  exact closed.1

theorem readMark_opening_of_isWord {word : Text} (isWord : IsWord word) (rest : Text) :
    readMark '(' (word ++ rest) = none := by
  refine readMark_of_head_ne fun c first => ?_
  rintro rfl
  exact Bool.noConfusion (head_of_isWord isWord rest _ first)

theorem readMark_opening_of_endsPiece {rest : Text} (ends : EndsPiece rest) :
    readMark '(' rest = none := by
  refine readMark_of_head_ne fun c first => ?_
  rcases ends c first with rfl | rfl | rfl <;> decide

theorem readConnective_of_endsLevel {rest : Text} (ends : EndsLevel rest) :
    readConnective rest = none := by
  have noBlank : readMark ' ' rest = none := by
    refine readMark_of_head_ne fun c first => ?_
    rcases ends c first with rfl | rfl <;> decide
  rw [readConnective, noBlank]
  rfl

theorem readConnective_text {connective : Connective} (between : connective ≠ .step) (rest : Text) :
    readConnective (connective.text ++ rest) = some (connective, rest) := by
  cases connective with
  | step => exact absurd rfl between
  | and => rfl
  | or => rfl
  | within => rfl
  | operator op => cases op <;> rfl

theorem connective_text_length_pos (connective : Connective) : 0 < connective.text.length := by
  cases connective <;> exact Nat.succ_pos _

theorem endsPiece_connective {connective : Connective} (between : connective ≠ .step) (rest : Text) :
    EndsPiece (connective.text ++ rest) := by
  cases connective with
  | step => exact absurd rfl between
  | and => exact fun c first => Or.inl (Option.some.inj first).symm
  | or => exact fun c first => Or.inl (Option.some.inj first).symm
  | within => exact fun c first => Or.inl (Option.some.inj first).symm
  | operator op => exact fun c first => Or.inl (Option.some.inj first).symm

theorem readValues_cons {word tail rest : Text} {words : List Text} {fuel : Nat}
    (isWord : IsWord word) (ends : ∀ c ∈ tail.head?, isDelimiter c = true)
    (later : readValues fuel tail = some (words, rest)) :
    readValues (fuel + 1) (", ".toList ++ (word ++ tail)) = some (word :: words, rest) := by
  have first := readWord_append isWord.2 ends
  have open_ : readMark ')' (", ".toList ++ (word ++ tail)) = none := rfl
  have comma : readMark ',' (", ".toList ++ (word ++ tail)) = some (' ' :: (word ++ tail)) := rfl
  simp only [readValues, open_, comma, readMark_self, first, later, Option.bind_eq_bind,
    Option.bind_some, Option.pure_def]

theorem readValues_append {texts : List Text} (words : ∀ text ∈ texts, IsWord text) {fuel : Nat}
    (enough : texts.length < fuel) (rest : Text) :
    readValues fuel (texts.flatMap (", ".toList ++ ·) ++ ')' :: rest) = some (texts, rest) := by
  obtain ⟨less, rfl⟩ : ∃ less, fuel = less + 1 := ⟨fuel - 1, by omega⟩
  induction texts generalizing less with
  | nil => rfl
  | cons text texts ih =>
    rw [List.length_cons] at enough
    obtain ⟨lesser, rfl⟩ : ∃ lesser, less = lesser + 1 := ⟨less - 1, by omega⟩
    have later := ih (fun other member => words other (List.mem_cons_of_mem _ member)) lesser
      (by omega)
    rw [List.flatMap_cons, List.append_assoc, List.append_assoc]
    refine readValues_cons (words text (List.mem_cons_self ..)) ?_ later
    cases texts <;> rintro c ⟨⟩ <;> rfl

theorem splitCallee_of_single {callee : Text} (single : '/' ∉ callee) :
    splitCallee callee = (none, callee) := by
  induction callee with
  | nil => rfl
  | cons c callee ih =>
    rw [List.mem_cons, not_or] at single
    simp only [splitCallee, ih single.2, if_neg (Ne.symm single.1)]

/-- A word is cut at the slash before a name without slashes. -/
theorem splitCallee_append {callee : Text} (single : '/' ∉ callee) (path : Text) :
    splitCallee (path ++ '/' :: callee) = (some path, callee) := by
  induction path with
  | nil => simp [splitCallee, splitCallee_of_single single]
  | cons c path ih => simp only [List.cons_append, splitCallee, ih]

/-- A call as one word: the path, if there is one, and the name. -/
def calleeWord : Option Text → Text → Text
  | none, callee => callee
  | some path, callee => path ++ '/' :: callee

/-- How an expression is written that a word with parentheses begins. -/
inductive Opened : (word inside : Text) → Expression → Prop
  | call (location : Option Text) {callee : Text} {arguments : List Expression}
      (single : IsCallee callee) (inner : ListWellFormed arguments) :
      Opened (calleeWord location callee) (join [','] (arguments.map bare) ++ [')'])
        (located location (.call callee arguments))
  | lambda (location : Option Text) (quantifier : Quantifier) {binder : Text} {body : Expression}
      (bound : IsWord binder) (inner : body.WellFormed) :
      Opened (calleeWord location quantifier.name.toList) (binder ++ ':' :: (body.bare ++ [')']))
        (located location (.lambda quantifier binder body))
  | count {path : Text} {filter : Expression} (counts : (splitCallee path).2 = "$count".toList)
      (inner : filter.WellFormed) :
      Opened path ("$filter=".toList ++ (filter.bare ++ [')'])) (.count path filter)

theorem Opened.bare_eq {word inside : Text} {expression : Expression}
    (opened : Opened word inside expression) : expression.bare = word ++ '(' :: inside := by
  cases opened with
  | call location _ _ => cases location <;> simp [located, calleeWord, bare, bareTexts_eq_map]
  | lambda location _ _ _ => cases location <;> simp [located, calleeWord, bare]
  | count _ _ => rfl

theorem splitCallee_calleeWord {callee : Text} (single : '/' ∉ callee) (location : Option Text) :
    splitCallee (calleeWord location callee) = (location, callee) := by
  cases location with
  | none => exact splitCallee_of_single single
  | some path => exact splitCallee_append single path

theorem isWord_calleeWord {location : Option Text} {callee : Text}
    (path : ∀ text ∈ location, IsWord text) (isWord : IsWord callee) :
    IsWord (calleeWord location callee) := by
  cases location with
  | none => exact isWord
  | some text =>
    refine ⟨by simp [calleeWord], ?_⟩
    rw [calleeWord, isClosed_append _ (path text rfl).2]
    exact isWord.2

/-- What the reader gets right with some fuel: every kind of text that is short enough for it. -/
structure Reads (fuel : Nat) : Prop where
  level : ∀ {expression : Expression} {rest : Text}, expression.WellFormed → EndsLevel rest →
    4 * expression.bare.length + 2 ≤ fuel →
    readLevel fuel (expression.bare ++ rest) = some (expression, rest)
  operands : ∀ {connective : Connective} {operands : List Expression} {rest : Text},
    connective ≠ .step → operands ≠ [] → ListWellFormed operands → EndsLevel rest →
    4 * (join connective.text (operands.map grouped)).length + 2 ≤ fuel →
    readOperands fuel connective (join connective.text (operands.map grouped) ++ rest) =
      some (operands, rest)
  piece : ∀ {expression : Expression} {rest : Text}, expression.WellFormed → EndsPiece rest →
    4 * expression.grouped.length + 1 ≤ fuel →
    readPiece fuel (expression.grouped ++ rest) = some (⟨expression.isChain, expression⟩, rest)
  opened : ∀ {word inside : Text} {expression : Expression} (rest : Text), IsWord word →
    Opened word inside expression → 4 * (word ++ '(' :: inside).length + 1 ≤ fuel →
    readPiece fuel (word ++ '(' :: inside ++ rest) = some (⟨false, expression⟩, rest)
  call : ∀ {word inside : Text} {expression : Expression} (rest : Text),
    Opened word inside expression → 4 * inside.length ≤ fuel →
    readCall fuel word (inside ++ rest) = some (expression, rest)
  arguments : ∀ {arguments : List Expression} (rest : Text), arguments ≠ [] →
    ListWellFormed arguments → 4 * (join [','] (arguments.map bare)).length + 3 ≤ fuel →
    readArguments fuel (join [','] (arguments.map bare) ++ ')' :: rest) = some (arguments, rest)

namespace Reads

variable {fuel : Nat}

theorem opened_succ (reads : Reads fuel) {word inside : Text} {expression : Expression}
    (isWord : IsWord word) (opened : Opened word inside expression) (rest : Text)
    (enough : 4 * (word ++ '(' :: inside).length + 1 ≤ fuel + 1) :
    readPiece (fuel + 1) (word ++ '(' :: inside ++ rest) = some (⟨false, expression⟩, rest) := by
  have free := readMark_opening_of_isWord isWord ('(' :: (inside ++ rest))
  have first : readWord false (word ++ '(' :: (inside ++ rest)) = (word, '(' :: (inside ++ rest)) :=
    readWord_append isWord.2 (by rintro c ⟨⟩; rfl)
  have call := reads.call rest opened (by simp at enough; omega)
  rw [List.append_assoc, List.cons_append]
  simp only [readPiece, free, first, readMark_self, call, Option.bind_eq_bind, Option.bind_some,
    Option.pure_def]

theorem leaf_succ {word rest : Text} (isWord : IsWord word) (ends : EndsPiece rest) :
    readPiece (fuel + 1) (word ++ rest) = some (⟨false, .leaf word⟩, rest) := by
  have free := readMark_opening_of_isWord isWord rest
  have first := readWord_append isWord.2 (isDelimiter_of_endsPiece ends)
  have bounded := readMark_opening_of_endsPiece ends
  simp only [readPiece, free, first, bounded, if_neg isWord.1]

theorem values_succ (reads : Reads fuel) {texts : List Text} (nonempty : texts ≠ [])
    (words : ∀ text ∈ texts, IsWord text) (rest : Text)
    (enough : 4 * (values texts).bare.length + 1 ≤ fuel + 1) :
    readPiece (fuel + 1) ((values texts).bare ++ rest) = some (⟨false, .values texts⟩, rest) := by
  obtain ⟨first, others, rfl⟩ := List.exists_cons_of_ne_nil nonempty
  have text : (values (first :: others)).bare =
      '(' :: (first ++ (others.flatMap (", ".toList ++ ·) ++ [')'])) := by
    rw [bare, join_eq_flatMap, List.cons_append, List.append_assoc]
  have count : others.length ≤ (others.flatMap (", ".toList ++ ·)).length :=
    length_le_flatMap (fun other => List.cons_ne_nil _ _) others
  rw [text] at enough ⊢
  simp only [List.length_cons, List.length_append, List.length_nil] at enough
  have ends : EndsLevel (others.flatMap (", ".toList ++ ·) ++ ')' :: rest) := by
    cases others with
    | nil => exact endsLevel_closing rest
    | cons other others => exact endsLevel_comma _
  have word : (leaf first).WellFormed := words first (List.mem_cons_self ..)
  have head := reads.level word ends (by rw [bare]; omega)
  have few : others.length < fuel := by omega
  have tail := readValues_append (fun other member => words other (List.mem_cons_of_mem _ member))
    few rest
  rw [bare] at head
  simp only [List.cons_append, List.append_assoc, List.nil_append, readPiece, readMark_self, head,
    tail, Option.bind_eq_bind, Option.bind_some, Option.pure_def]

theorem chain_succ (reads : Reads fuel) {expression : Expression}
    (wellFormed : expression.WellFormed) (chain : expression.isChain = true) (rest : Text)
    (enough : 4 * expression.grouped.length + 1 ≤ fuel + 1) :
    readPiece (fuel + 1) (expression.grouped ++ rest) = some (⟨true, expression⟩, rest) := by
  rw [grouped_of_isChain chain] at enough ⊢
  simp only [List.length_cons, List.length_append, List.length_nil] at enough
  have inner := reads.level wellFormed (endsLevel_closing rest) (by omega)
  have text : '(' :: expression.bare ++ [')'] ++ rest = '(' :: (expression.bare ++ ')' :: rest) := by
    rw [List.append_assoc]
    rfl
  rw [text]
  cases expression with
  | chain _ _ =>
    simp only [readPiece, readMark_self, inner, Option.bind_eq_bind, Option.bind_some,
      Option.pure_def, isChain, if_true]
  | step _ _ =>
    simp only [readPiece, readMark_self, inner, Option.bind_eq_bind, Option.bind_some,
      Option.pure_def, isChain, if_true]
  | leaf _ | values _ | call _ _ | lambda _ _ _ | count _ _ => exact Bool.noConfusion chain

theorem opened_of_isCall (location : Option Text) {target : Expression}
    (call : target.isCall = true) (wellFormed : target.WellFormed)
    (path : ∀ text ∈ location, IsWord text) :
    ∃ word inside, IsWord word ∧ Opened word inside (located location target) := by
  cases target with
  | call callee arguments =>
    have single : IsCallee callee := wellFormed.1
    exact ⟨_, _, isWord_calleeWord path single.1, .call location single wellFormed.2⟩
  | lambda quantifier binder body =>
    have name : IsWord quantifier.name.toList := by cases quantifier <;> exact ⟨nofun, rfl⟩
    exact ⟨_, _, isWord_calleeWord path name, .lambda location quantifier wellFormed.1 wellFormed.2⟩
  | leaf _ | values _ | chain _ _ | step _ _ | count _ _ => exact Bool.noConfusion call

theorem piece_succ (reads : Reads fuel) {expression : Expression} {rest : Text}
    (wellFormed : expression.WellFormed) (ends : EndsPiece rest)
    (enough : 4 * expression.grouped.length + 1 ≤ fuel + 1) :
    readPiece (fuel + 1) (expression.grouped ++ rest) =
      some (⟨expression.isChain, expression⟩, rest) := by
  have opens : ∀ {word inside : Text}, IsWord word → Opened word inside expression →
      expression.isChain = false → readPiece (fuel + 1) (expression.grouped ++ rest) =
        some (⟨expression.isChain, expression⟩, rest) := by
    intro word inside isWord opened atom
    rw [grouped_of_not_isChain atom, opened.bare_eq] at enough ⊢
    rw [atom]
    exact reads.opened_succ isWord opened rest enough
  cases expression with
  | leaf word => exact leaf_succ wellFormed ends
  | values texts => exact reads.values_succ wellFormed.1 wellFormed.2 rest enough
  | chain connective operands => exact reads.chain_succ wellFormed rfl rest enough
  | step path target => exact reads.chain_succ wellFormed rfl rest enough
  | call callee arguments =>
    obtain ⟨word, inside, isWord, opened⟩ :=
      opened_of_isCall none rfl wellFormed nofun
    exact opens isWord opened rfl
  | lambda quantifier binder body =>
    obtain ⟨word, inside, isWord, opened⟩ :=
      opened_of_isCall none rfl wellFormed nofun
    exact opens isWord opened rfl
  | count path filter => exact opens wellFormed.1 (.count wellFormed.2.1 wellFormed.2.2) rfl

/-- Behind the first of several operands come the connective and the other operands. -/
theorem neighbours (reads : Reads fuel) {connective : Connective} {first second : Expression}
    {others : List Expression} {rest : Text} (between : connective ≠ .step)
    (wellFormed : ListWellFormed (first :: second :: others)) (ends : EndsLevel rest)
    (enough : 4 * (join connective.text ((first :: second :: others).map grouped)).length + 2 ≤
      fuel + 1) :
    ∃ behind,
      readPiece fuel (join connective.text ((first :: second :: others).map grouped) ++ rest) =
        some (⟨first.isChain, first⟩, behind) ∧
      ∃ later, readConnective behind = some (connective, later) ∧
        readOperands fuel connective later = some (second :: others, rest) := by
  have text : join connective.text ((first :: second :: others).map grouped) =
      first.grouped ++ (connective.text ++
        join connective.text ((second :: others).map grouped)) :=
    List.append_assoc first.grouped connective.text _
  have blanks := connective_text_length_pos connective
  rw [text] at enough ⊢
  simp only [List.length_append] at enough
  have head := reads.piece wellFormed.1 (endsPiece_connective between
    (join connective.text ((second :: others).map grouped) ++ rest)) (by omega)
  have tail := reads.operands between (List.cons_ne_nil second others) wellFormed.2 ends
    (by omega)
  rw [List.append_assoc, List.append_assoc]
  exact ⟨_, head, _, readConnective_text between _, tail⟩

theorem level_succ (reads : Reads fuel) {expression : Expression} {rest : Text}
    (wellFormed : expression.WellFormed) (ends : EndsLevel rest)
    (enough : 4 * expression.bare.length + 2 ≤ fuel + 1) :
    readLevel (fuel + 1) (expression.bare ++ rest) = some (expression, rest) := by
  have alone : ∀ piece : Piece, piece.grouped = false → piece.expression = expression →
      readPiece fuel (expression.bare ++ rest) = some (piece, rest) →
      readLevel (fuel + 1) (expression.bare ++ rest) = some (expression, rest) := by
    rintro piece ungrouped rfl first
    simp only [readLevel, first, readConnective_of_endsLevel ends, ungrouped, Option.bind_eq_bind,
      Option.bind_some, Bool.false_eq_true, if_false]
  by_cases chain : expression.isChain = true
  · cases expression with
    | step path target =>
      -- a step is a chain where it is an operand, but the reader meets it as one piece
      obtain ⟨isWord, call, inner⟩ := wellFormed
      obtain ⟨word, inside, whole, opened⟩ :=
        opened_of_isCall (some path) call inner (by rintro text ⟨⟩; exact isWord)
      have text := opened.bare_eq
      refine alone ⟨false, .step path target⟩ rfl rfl ?_
      rw [show (step path target).bare = word ++ '(' :: inside from text] at enough ⊢
      exact reads.opened rest whole opened (by omega)
    | chain connective operands =>
      obtain ⟨between, several, inner⟩ := wellFormed
      match operands with
      | first :: second :: others =>
        rw [bare, groupedTexts_eq_map] at enough ⊢
        obtain ⟨behind, head, later, blank, tail⟩ :=
          reads.neighbours between inner ends enough
        simp only [readLevel, head, blank, isOperand_self, tail, if_true, Option.bind_eq_bind,
          Option.bind_some, Option.pure_def]
    | leaf _ | values _ | call _ _ | lambda _ _ _ | count _ _ => exact Bool.noConfusion chain
  · rw [Bool.not_eq_true] at chain
    have first := reads.piece wellFormed ends.endsPiece
      (by rw [grouped_of_not_isChain chain]; omega)
    rw [grouped_of_not_isChain chain] at first
    exact alone _ chain rfl first

theorem operands_succ (reads : Reads fuel) {connective : Connective} {operands : List Expression}
    {rest : Text} (between : connective ≠ .step) (nonempty : operands ≠ [])
    (wellFormed : ListWellFormed operands) (ends : EndsLevel rest)
    (enough : 4 * (join connective.text (operands.map grouped)).length + 2 ≤ fuel + 1) :
    readOperands (fuel + 1) connective (join connective.text (operands.map grouped) ++ rest) =
      some (operands, rest) := by
  match operands with
  | [last] =>
    have text : join connective.text ([last].map grouped) = last.grouped := rfl
    rw [text] at enough ⊢
    have piece := reads.piece wellFormed.1 ends.endsPiece (by omega)
    simp only [readOperands, piece, isOperand_self, readConnective_of_endsLevel ends, if_true,
      Option.bind_eq_bind, Option.bind_some, Option.pure_def]
  | first :: second :: others =>
    obtain ⟨behind, head, later, blank, tail⟩ := reads.neighbours between wellFormed ends enough
    simp only [readOperands, head, blank, isOperand_self, tail, if_true, Option.bind_eq_bind,
      Option.bind_some, Option.pure_def]

/-- No level begins with a closing parenthesis. -/
theorem readMark_closing_of_readLevel {text : Text} {result : Expression × Text}
    (read : readLevel fuel text = some result) : readMark ')' text = none := by
  refine readMark_of_head_ne fun c first => ?_
  rintro rfl
  obtain ⟨rest, rfl⟩ : ∃ rest, text = ')' :: rest := by
    cases text with
    | nil => cases first
    | cons c rest => exact ⟨rest, congrArg (· :: rest) (Option.some.inj first)⟩
  match fuel with
  | 0 => cases read
  | 1 => cases read
  | fuel + 2 => cases read

theorem call_arguments_succ (reads : Reads fuel) (location : Option Text) {callee : Text}
    (single : IsCallee callee) {arguments : List Expression} (wellFormed : ListWellFormed arguments)
    (rest : Text) (enough : 4 * (join [','] (arguments.map bare) ++ [')']).length ≤ fuel + 1) :
    readCall (fuel + 1) (calleeWord location callee)
        (join [','] (arguments.map bare) ++ [')'] ++ rest) =
      some (located location (.call callee arguments), rest) := by
  obtain ⟨isWord, noSlash, free⟩ := single
  simp only [reservedCallees, List.mem_cons, List.not_mem_nil, or_false, not_or] at free
  have noQuantifier : [Quantifier.any, .all].find? (fun q => q.name.toList = callee) = none := by
    refine List.find?_eq_none.mpr fun quantifier _ same => ?_
    cases quantifier
    · exact free.1 (of_decide_eq_true same).symm
    · exact free.2.1 (of_decide_eq_true same).symm
  rw [List.append_assoc, List.singleton_append]
  simp only [readCall, splitCallee_calleeWord noSlash, noQuantifier, if_neg free.2.2]
  match arguments with
  | [] => rfl
  | first :: others =>
    simp only [List.length_append, List.length_singleton] at enough
    have read := reads.arguments rest (List.cons_ne_nil first others) wellFormed (by omega)
    have open_ : readMark ')' (join [','] ((first :: others).map bare) ++ ')' :: rest) = none := by
      rw [List.map_cons, join_eq_flatMap] at enough ⊢
      rw [List.length_append] at enough
      rw [List.append_assoc]
      refine readMark_closing_of_readLevel (reads.level wellFormed.1 ?_ (by omega))
      cases others with
      | nil => exact endsLevel_closing rest
      | cons second others => exact endsLevel_comma _
    simp only [open_, read, Option.bind_eq_bind, Option.bind_some, Option.pure_def]

theorem call_succ (reads : Reads fuel) {word inside : Text} {expression : Expression} (rest : Text)
    (opened : Opened word inside expression) (enough : 4 * inside.length ≤ fuel + 1) :
    readCall (fuel + 1) word (inside ++ rest) = some (expression, rest) := by
  cases opened with
  | call location single wellFormed =>
    exact reads.call_arguments_succ location single wellFormed rest enough
  | @lambda location quantifier binder body isWord wellFormed =>
    have noSlash : '/' ∉ quantifier.name.toList := by cases quantifier <;> decide
    have found : [Quantifier.any, .all].find? (fun q => q.name.toList = quantifier.name.toList) =
        some quantifier := by cases quantifier <;> rfl
    have name : readWord false (binder ++ ':' :: (body.bare ++ ')' :: rest)) =
        (binder, ':' :: (body.bare ++ ')' :: rest)) :=
      readWord_append isWord.2 (by rintro c ⟨⟩; rfl)
    simp only [List.length_append, List.length_cons, List.length_nil] at enough
    have inner := reads.level wellFormed (endsLevel_closing rest) (by omega)
    simp only [List.append_assoc, List.cons_append, List.nil_append, readCall,
      splitCallee_calleeWord noSlash, found, name, readMark_self, inner, Option.bind_eq_bind,
      Option.bind_some, Option.pure_def]
  | @count _ filter counts wellFormed =>
    have noQuantifier : [Quantifier.any, .all].find? (fun q => q.name.toList = "$count".toList) =
        none := rfl
    have dropped : dropBeginning? "$filter=".toList
        ("$filter=".toList ++ (filter.bare ++ ')' :: rest)) = some (filter.bare ++ ')' :: rest) :=
      rfl
    simp only [List.length_append, List.length_cons, List.length_nil] at enough
    have inner := reads.level wellFormed (endsLevel_closing rest) (by omega)
    simp only [List.append_assoc, List.cons_append, List.nil_append, readCall,
      counts, noQuantifier, dropped, readMark_self, inner, if_true, Option.bind_eq_bind,
      Option.bind_some, Option.pure_def]

theorem arguments_succ (reads : Reads fuel) {arguments : List Expression} (rest : Text)
    (nonempty : arguments ≠ []) (wellFormed : ListWellFormed arguments)
    (enough : 4 * (join [','] (arguments.map bare)).length + 3 ≤ fuel + 1) :
    readArguments (fuel + 1) (join [','] (arguments.map bare) ++ ')' :: rest) =
      some (arguments, rest) := by
  match arguments with
  | [last] =>
    have text : join [','] ([last].map bare) = last.bare := rfl
    rw [text] at enough ⊢
    have level := reads.level wellFormed.1 (endsLevel_closing rest) (by omega)
    simp only [readArguments, level, readMark_self, Option.bind_eq_bind, Option.bind_some,
      Option.pure_def]
  | first :: second :: others =>
    have text : join [','] ((first :: second :: others).map bare) =
        first.bare ++ ',' :: join [','] ((second :: others).map bare) :=
      List.append_assoc first.bare [','] _
    rw [text] at enough ⊢
    simp only [List.length_append, List.length_cons] at enough
    have level := reads.level wellFormed.1
      (endsLevel_comma (join [','] ((second :: others).map bare) ++ ')' :: rest)) (by omega)
    have later := reads.arguments rest (List.cons_ne_nil second others) wellFormed.2 (by omega)
    have open_ : readMark ')' (',' :: (join [','] ((second :: others).map bare) ++ ')' :: rest)) =
      none := rfl
    simp only [List.append_assoc, List.cons_append, readArguments, level, open_, readMark_self,
      later, Option.bind_eq_bind, Option.bind_some, Option.pure_def]

end Reads

/-- Every amount of fuel reads the texts that are short enough for it. Each step of the reader
costs one unit, so the induction is on the fuel: what is read with less of it is what stands
inside. -/
theorem reads (fuel : Nat) : Reads fuel := by
  induction fuel with
  | zero =>
    -- no text is short enough for no fuel
    constructor
    case level => intro _ _ _ _ enough; omega
    case operands => intro _ _ _ _ _ _ _ enough; omega
    case piece => intro _ _ _ _ enough; omega
    case opened => intro _ _ _ _ _ _ enough; omega
    case call =>
      intro word inside expression rest opened enough
      cases opened <;> simp at enough
    case arguments => intro _ _ _ _ enough; omega
  | succ fuel ih =>
    constructor
    case level => exact ih.level_succ
    case operands => exact ih.operands_succ
    case piece => exact ih.piece_succ
    case opened => exact fun rest isWord opened => ih.opened_succ isWord opened rest
    case call => exact fun rest opened => ih.call_succ rest opened
    case arguments => exact fun rest => ih.arguments_succ rest

/-- A well-formed expression is what its text is read as. -/
theorem read?_bare {expression : Expression} (wellFormed : expression.WellFormed) :
    read? expression.bare = some expression := by
  have level := (reads _).level wellFormed endsLevel_nil (Nat.le_refl _)
  rw [List.append_nil] at level
  rw [read?, level]
  rfl

/-- No text is that of two expressions. -/
theorem bare_injective {first second : Expression} (firstWellFormed : first.WellFormed)
    (secondWellFormed : second.WellFormed) (same : first.bare = second.bare) : first = second := by
  have read := read?_bare secondWellFormed
  rw [← same, read?_bare firstWellFormed] at read
  exact Option.some.inj read

end OData.Expression
