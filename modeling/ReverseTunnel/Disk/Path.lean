/-!
Paths as text: names with slashes between them.

Slashes at the end, and single dots behind a slash, add nothing to a path; `trimmed`
is the path without them at its end. The last name of a path is its file name unless
it is a dot or two, and a file name has an extension behind its last dot unless that
dot comes first.
-/

namespace ReverseTunnel.Disk.Path

/-- A path read backwards without what adds nothing at its end. -/
def trimBackwards : List Char → List Char
  | ['/'] => ['/']
  | '/' :: rest => trimBackwards rest
  | '.' :: '/' :: rest => trimBackwards ('/' :: rest)
  | cs => cs

/-- A path without what adds nothing at its end, read backwards. -/
def backwards (path : String) : List Char := trimBackwards path.toList.reverse

/-- A path without what adds nothing at its end. -/
def trimmed (path : String) : String := String.ofList (backwards path).reverse

/-- The path of the folder that holds what a path leads to: the empty one is the
folder that paths start from. -/
def parent? (path : String) : Option String :=
  match backwards path with
  | [] => none
  | ['/'] => none
  | cs => some (String.ofList (trimBackwards (cs.dropWhile (· ≠ '/'))).reverse)

/-- The last name of a path. -/
def fileName? (path : String) : Option (List Char) :=
  match ((backwards path).takeWhile (· ≠ '/')).reverse with
  | [] => none
  | ['.'] => none
  | ['.', '.'] => none
  | name => some name

/-- What stands behind the last dot of the file name. -/
def extension? (path : String) : Option String := do
  let name ← fileName? path
  guard (name.contains '.')
  let after := (name.reverse.takeWhile (· ≠ '.')).reverse
  guard (after.length + 1 < name.length)
  return String.ofList after

/-- A path whose file name has no extension, with one. -/
def withExtension (path extension : String) : String :=
  match fileName? path with
  | none => path
  | some _ => trimmed path ++ "." ++ extension

/-- A name within a folder. -/
def join (folder name : String) : String :=
  match folder.toList.getLast? with
  | none => name
  | some c => if c = '/' then folder ++ name else folder ++ "/" ++ name

/-- The names of a path, from the outside in. -/
def names (path : String) : List String := (path.toList.splitOn '/').map String.ofList

end ReverseTunnel.Disk.Path
