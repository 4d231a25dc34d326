import OData.Uri.Percent

namespace OData

/-- A resource by its name, or by the segments of a path. -/
inductive ResourcePath
  | single (name : String)
  | segments (names : List String)
deriving DecidableEq, Repr

namespace Uri

/-- Writes an encoded `/$count` at the end of a text in plain characters again, whether it came as a
segment of its own or inside the last one. -/
def restoreCount (encoded : Text) : Text :=
  match Text.dropEnding? "%2F%24count".toList encoded with
  | some front => front ++ "/$count".toList
  | none =>
    match Text.dropEnding? "/%24count".toList encoded with
    | some front => front ++ "/$count".toList
    | none => encoded

def encodeSegments (segments : List String) : Text :=
  Text.join ['/'] (segments.map fun segment => encodeComponent segment.toList)

def encodePath (segments : List String) : Text := restoreCount (encodeSegments segments)

/-- A resource. The name of a single resource is one component, its slashes included. -/
def encodeResource : ResourcePath → Text
  | .single name => restoreCount (encodeComponent name.toList)
  | .segments names => encodePath names

def encodeAlias (name : String) : Text := '@' :: encodeComponent name.toList

end Uri

end OData
