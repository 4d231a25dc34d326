import OData.Options.OfJson

namespace OData

def Select.compile : Select → Except Error Text
  | .fields text => .ok text.toList
  | .list [] => .error (.arity .selectList)
  | .list names => .ok (Text.join [','] (names.map String.toList))
  | .set [] => .error (.arity .selectSet)
  | .set names => .ok (Text.join [','] (names.map String.toList))

def CustomValue.literal : CustomValue → Text
  | .text value => value.toList
  | .bool true => "true".toList
  | .bool false => "false".toList
  | .number n => n.literal
  | .list items => Text.join [','] (items.map String.toList)

namespace QueryOption

def assign (key : String) (value : Text) : Text := key.toList ++ '=' :: value

/-- Whether an option may stand on a navigation property. -/
def isNestable : QueryOption → Bool
  | .count _ | .parameter _ _ | .custom _ _ => false
  | _ => true

end QueryOption

namespace Expand

/-- The filters among the options of a count; nothing else of them is kept. -/
def countFilters (inner : Options) : List Filter := inner.filterMap QueryOption.filter?

def compileFilters : List Filter → Except Error (List Text)
  | [] => .ok []
  | filter :: rest => do
    let text ← filter.compile
    let texts ← compileFilters rest
    return QueryOption.assign "$filter" text :: texts

def withOptions (path : String) (options : List Text) : Text :=
  let encoded := Uri.encodeResource (.single path)
  if options.isEmpty then encoded
  else encoded ++ '(' :: Text.join [';'] options ++ [')']

/-- A count on a navigation property. Options that are no filters are dropped and reported. -/
def compileCount (path : String) (inner : Options) : Compilation Text := do
  if (Options.keys inner).any (· != "$filter") then
    Compilation.report (.expandCountOptions (Options.keys inner))
  let filters ← Compilation.lift (compileFilters (countFilters inner))
  return withOptions (String.ofList (path.toList ++ "/$count".toList)) filters

end Expand

mutual

def Expand.compile : Expand → Compilation Text
  | .property path => pure (Uri.encodeResource (.single path))
  | .list [] => .fail (.arity .expandList)
  | .list items => do return Text.join [','] (← Expand.compileList items)
  | .object entries => do return Text.join [','] (← Expand.compileEntries entries)

def Expand.compileList : List Expand → Compilation (List Text)
  | [] => pure []
  | expand :: rest => do
    let text ← expand.compile
    let texts ← Expand.compileList rest
    return text :: texts

def Expand.compileEntries : List (String × List QueryOption) → Compilation (List Text)
  | [] => pure []
  | (path, options) :: rest => do
    Compilation.lift (checkExpandKey path)
    let text ← match options with
      | [.count inner] => Expand.compileCount path inner
      | options =>
        if (Options.count? options).isSome then
          .fail (.shape (.expandCountAlone (Options.keys options)))
        else Expand.withOptions path <$> QueryOption.compileNested options
    let texts ← Expand.compileEntries rest
    return text :: texts

def QueryOption.compileNested : List QueryOption → Compilation (List Text)
  | [] => pure []
  | option :: rest => do
    let text ←
      if option.isNestable then option.compile
      else .fail (.unknownExpandOption option.key)
    let texts ← QueryOption.compileNested rest
    return text :: texts

/-- An option as `key=value`. A count is the business of the query around it. -/
def QueryOption.compile : QueryOption → Compilation Text
  | .filter filter => QueryOption.assign "$filter" <$> Compilation.lift filter.compile
  | .expand expand => QueryOption.assign "$expand" <$> expand.compile
  | .orderBy ordering => QueryOption.assign "$orderby" <$> ordering.compile
  | .top count => pure (QueryOption.assign "$top" (Text.ofNat count))
  | .skip count => pure (QueryOption.assign "$skip" (Text.ofNat count))
  | .select select => QueryOption.assign "$select" <$> Compilation.lift select.compile
  | .format format => pure (QueryOption.assign "$format" format.toList)
  | .count _ => .fail (.unknownOption "$count")
  | .parameter name value =>
    pure (QueryOption.assign (QueryOption.key (.parameter name value)) value.literal)
  | .custom name value =>
    if name.toList.head? = some '$' then .fail (.unknownOption name)
    else pure (QueryOption.assign name value.literal)

end

namespace Options

def compileList : Options → Compilation (List Text)
  | [] => pure []
  | option :: rest => do
    let text ← option.compile
    let texts ← compileList rest
    return text :: texts

def compile (options : Options) : Compilation Text :=
  Text.join ['&'] <$> compileList options

end Options

end OData
