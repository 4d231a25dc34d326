import OData.Error

namespace OData

inductive Deprecation
  | url
  | orderByCountText
  | expandCountOptions (keys : List String)
deriving DecidableEq, Repr

namespace Deprecation

/-- What reports of one kind have in common. -/
def key : Deprecation → String
  | .url => "url"
  | .orderByCountText => "orderby-count-string"
  | .expandCountOptions _ => "expand-count-options"

def text : Deprecation → Text
  | .url => "`url` is deprecated, please use `resource`, `id` and `options` instead.".toList
  | .orderByCountText =>
    ("'$orderby: 'a/$count ...'' is deprecated, please use " ++
      "'$orderby: \x7b a: \x7b $count: \x7b...\x7d \x7d, $dir: 'asc' \x7d' instead.").toList
  | .expandCountOptions keys =>
    ("When using '$expand: a: $count: ...' you can only specify $filter in the $count, " ++
      "got: '").toList ++ Json.stringsText keys ++ ['\'']

end Deprecation

/-- The outcome of a compilation together with its reports, in order. What was reported stays
reported when the compilation fails later on. -/
structure Compilation (α : Type) where
  reports : List Deprecation
  outcome : Except Error α

namespace Compilation

variable {α β : Type}

def lift (outcome : Except Error α) : Compilation α := ⟨[], outcome⟩

def fail (error : Error) : Compilation α := ⟨[], .error error⟩

def report (deprecation : Deprecation) : Compilation Unit := ⟨[deprecation], .ok ()⟩

def bind (first : Compilation α) (next : α → Compilation β) : Compilation β :=
  match first.outcome with
  | .ok value => ⟨first.reports ++ (next value).reports, (next value).outcome⟩
  | .error error => ⟨first.reports, .error error⟩

instance : Monad Compilation where
  pure value := ⟨[], .ok value⟩
  bind := bind

end Compilation

end OData
