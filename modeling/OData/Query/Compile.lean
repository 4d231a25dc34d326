import OData.Options.Compile
import OData.Query.OfJson

namespace OData

namespace ResourceId

def keyText : KeyValue → Text
  | .value scalar => scalar.literal
  | .parameter name => Uri.encodeAlias name

/-- The text between the parentheses behind a resource. The names of a composite key are written as
they are. -/
def compile : ResourceId → Except Error Text
  | .value .null => .error .nullId
  | .value scalar => .ok scalar.literal
  | .parameter name => .ok (Uri.encodeAlias name)
  | .composite keys =>
    .ok (Text.join [','] (keys.map fun (name, key) => name.toList ++ '=' :: keyText key))

end ResourceId

namespace Query

def compilePath (resource : String) (id : Option ResourceId) (action : Option String) :
    Except Error Text := do
  if "/$count".toList.isSuffixOf resource.toList then .error (.removed .countResource)
  else
    let base := Uri.encodeResource (.single resource)
    let selected ← match id with
      | some id => do
        let text ← id.compile
        pure (base ++ '(' :: text ++ [')'])
      | none => pure base
    match action with
    | some action => return selected ++ '/' :: action.toList
    | none => return selected

/-- A path with the options behind a question mark, if there are any. -/
def withOptions (path : Text) (options : Options) : Compilation Text := do
  let text ← Options.compile options
  return if text.isEmpty then path else path ++ '?' :: text

/-- A path with the options of a query. A count stands alone, and the options inside it are those of
the query. -/
def compileOptions (path : Text) (options : Options) : Compilation Text :=
  match Options.count? options with
  | none => withOptions path options
  | some inner =>
    if 1 < options.length then .fail (.shape (.countAlone (Options.keys options)))
    else withOptions (path ++ "/$count".toList) inner

def compile (query : Query) : Compilation Text := do
  match query.url with
  | some url =>
    Compilation.report .url
    return url.toList
  | none =>
    match query.resource with
    | none => .fail .missingResource
    | some resource =>
      let path ← Compilation.lift (compilePath resource query.id query.action)
      match query.options with
      | none => return path
      | some options => compileOptions path options

end Query

/-- `model.resource.access`, and the filter behind a question mark if there is one. -/
def Permission.compile (permission : Permission) : Except Error Text := do
  let base := permission.model.toList ++ '.' :: permission.resource.toList ++
    '.' :: permission.access.toList
  match permission.filter with
  | none => return base
  | some filter => return base ++ '?' :: (← filter.compile)

end OData
