namespace OData

/-- Values under text keys, in the order in which the keys first came. A key that is given again
keeps its place and takes the new value. -/
abbrev Keyed (α : Type) := List (String × α)

namespace Keyed

variable {α : Type}

def keys (entries : Keyed α) : List String := entries.map (·.1)

/-- Puts a value under a key: in place where the key is present, at the end otherwise. -/
def insert (key : String) (value : α) : Keyed α → Keyed α
  | [] => [(key, value)]
  | (k, v) :: rest => if k = key then (k, value) :: rest else (k, v) :: insert key value rest

/-- Puts every entry of `overlay`, in order, into `base`. -/
def extend (base overlay : Keyed α) : Keyed α :=
  overlay.foldl (fun entries (key, value) => insert key value entries) base

/-- The entries with repeated keys resolved. -/
def ofList (entries : List (String × α)) : Keyed α := extend [] entries

/-- Puts a value under a key of a list that is sorted by key, and keeps it sorted. -/
def insertSorted (key : String) (value : α) : Keyed α → Keyed α
  | [] => [(key, value)]
  | (k, v) :: rest =>
    if k = key then (k, value) :: rest
    else if key < k then (key, value) :: (k, v) :: rest
    else (k, v) :: insertSorted key value rest

/-- Puts every entry of `overlay` into a list that is sorted by key. -/
def extendSorted (base overlay : Keyed α) : Keyed α :=
  overlay.foldl (fun entries (key, value) => insertSorted key value entries) base

end Keyed

end OData
