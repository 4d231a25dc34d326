import OData.Command.Run

namespace OData.Command

inductive Refusal
  | missing
  | notDirectory
  | isDirectory
  | nameTooLong
deriving DecidableEq, Repr

def Refusal.text : Refusal → String
  | .missing => "No such file or directory (os error 2)"
  | .notDirectory => "Not a directory (os error 20)"
  | .isDirectory => "Is a directory (os error 21)"
  | .nameTooLong => "File name too long (os error 36)"

/-- Files with their texts, by the names that lead to them from a directory. -/
abbrev Directory := List (List Text × String)

namespace Directory

def steps (path : Text) : List Text := path.splitOn '/'

def ofFiles (files : List (String × String)) : Directory :=
  files.map fun (name, text) => (steps name.toList, text)

/-- A place on the way along a path: a directory below this one, one somewhere above it, or a
file. -/
inductive Place
  | below (names : List Text)
  | above (levels : Nat)
  | file (text : String)
deriving DecidableEq, Repr

/-- The place that a name leads to. The directories above hold nothing that is known. -/
def enter (directory : Directory) (name : Text) : Place → Except Refusal Place
  | .file _ => .error .notDirectory
  | place =>
    if name = [] ∨ name = ".".toList then .ok place
    else if name = "..".toList then .ok <| match place with
      | .above levels => .above (levels + 1)
      | .below names => if names.isEmpty then .above 1 else .below names.dropLast
      | .file text => .file text
    else if 255 < (String.ofList name).utf8ByteSize then .error .nameTooLong
    else match place with
      | .below names =>
        let names := names ++ [name]
        match directory.lookup names with
        | some text => .ok (.file text)
        | none =>
          if directory.any fun (file, _) => names.isPrefixOf file then .ok (.below names)
          else .error .missing
      | _ => .error .missing

/-- The directory from the root on, as far as it is known, where `input` can be read. -/
def devices (input : String) : Directory :=
  [(["dev".toList, "null".toList], ""), (["dev".toList, "stdin".toList], input)]

/-- The text that a path leads to, and whether it is that of a file. Paths are followed step by
step, from the directory or from the root, where nothing but the usual devices is known. -/
def find (directory : Directory) (input : String) (path : Text) : Except Refusal (String × Bool) :=
  let isAbsolute := path.head? = some '/'
  let directory := if isAbsolute then devices input else directory
  if 4096 ≤ (String.ofList path).utf8ByteSize then .error .nameTooLong
  else do
    match ← (steps path).foldlM (fun place name => directory.enter name place) (.below []) with
    | .file text => .ok (text, !isAbsolute)
    | _ => .error .isDirectory

def surroundings (directory : Directory) (input : String) (environment : List (String × String)) :
    Surroundings where
  input := .ok input
  read := fun path =>
    ((directory.find input path.toList).map (·.1)).mapError Refusal.text
  isFile := fun path => match directory.find input path.toList with
    | .ok (_, isFile) => isFile
    | .error _ => false
  environment

end Directory

end OData.Command
