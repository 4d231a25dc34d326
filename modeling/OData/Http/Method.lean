import OData.Text

namespace OData.Http

structure Method where
  name : String
deriving DecidableEq, Repr

namespace Method

def get : Method := ⟨"GET"⟩

def put : Method := ⟨"PUT"⟩

def patch : Method := ⟨"PATCH"⟩

def post : Method := ⟨"POST"⟩

def delete : Method := ⟨"DELETE"⟩

def isTokenChar (c : Char) : Bool := c.isAlphanum || "!#$%&'*+-.^_`|~".toList.contains c

/-- The method that a word names in any case. It has to be a token. -/
def ofWord? (word : String) : Option Method :=
  let name := word.toList.map Char.toUpper
  if name ≠ [] ∧ name.all isTokenChar then some ⟨String.ofList name⟩ else none

end Method

end OData.Http
