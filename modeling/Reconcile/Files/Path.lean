import Reconcile.Text.Blank

/-!
# Paths

Paths are texts whose parts are separated by `/`. They are joined and cut as texts, never
normalised: a path keeps the form in which it was given.

* `Path.join` appends a relative path to another one; an absolute path stands for itself.
* `Path.parent?` takes the last part off. Empty parts and parts `.` do not count as parts, except
  for a `.` at the very start.
* `Path.extension?` is what follows the last dot of a file name that does not start with that dot.
-/

namespace Reconcile.Path

/-- Whether a path starts at the root. -/
def isAbsolute (path : String) : Bool :=
  path.toList.head? == some '/'

/-- Whether a path starts at the working directory. -/
def isRelative (path : String) : Bool :=
  ! isAbsolute path

/-- The path that leads through `base` and on along `path`. -/
def join (base path : String) : String :=
  if isAbsolute path then path
  else if base.isEmpty || base.toList.getLast? == some '/' then base ++ path
  else base ++ "/" ++ path

/-- The pieces of a path between its separators. The first piece of an absolute path is empty. -/
def pieces (path : String) : List String :=
  Text.splitAt '/' path

/-- Whether a piece leads nowhere. -/
def isIdle (piece : String) : Bool :=
  piece == "" || piece == "."

/-- Pieces without the idle ones at their end. -/
def dropIdle (pieces : List String) : List String :=
  (pieces.reverse.dropWhile isIdle).reverse

/-- The path without its last part. The root and the empty path have no parts to take off. -/
def parent? (path : String) : Option String :=
  match pieces path with
  | [] => none
  | first :: rest =>
    match dropIdle rest with
    | [] => if first == "" then none else some ""
    | last :: more =>
      let kept := first :: dropIdle (last :: more).dropLast
      some (if kept == [""] then "/" else String.intercalate "/" kept)

/-- What follows the last dot of a file name, if something stands before that dot. -/
def extension? (fileName : String) : Option String :=
  match (Text.splitAt '.' fileName).reverse with
  | [] | [_] => none
  | last :: before => if fileName == ".." || before == [""] then none else some last

end Reconcile.Path
