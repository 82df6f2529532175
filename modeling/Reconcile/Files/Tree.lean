import Reconcile.Files.Path

/-!
# File trees

Directories and files below one root, as they are found by paths. A place is the list of names
that leads to it from the root; a path is resolved to a place piece by piece, from the root or from
the working directory, and every piece requires the place before it to be a directory.

The reasons for which a path cannot be used are those of `FileError`, whose messages are the texts
that the operating system gives.
-/

namespace Reconcile

/-- Why a file or a directory cannot be read. -/
inductive FileError where
  | notFound
  | notADirectory
  | isADirectory
  /-- The path, or one of its pieces, has more bytes than a path or a name may have. -/
  | nameTooLong
  /-- The path contains the character that ends a path for the operating system. -/
  | containsNul
  /-- The content of the file is not text in UTF-8. -/
  | notText
deriving DecidableEq, Repr

/-- The message of a file error. -/
def FileError.message : FileError → String
  | notFound => "No such file or directory (os error 2)"
  | notADirectory => "Not a directory (os error 20)"
  | isADirectory => "Is a directory (os error 21)"
  | nameTooLong => "File name too long (os error 36)"
  | containsNul => "file name contained an unexpected NUL byte"
  | notText => "stream did not contain valid UTF-8"

/-- The names that lead from the root to a file or a directory. -/
abbrev Place := List String

/-- What is found at a place. -/
inductive FileEntry where
  | file (content : ByteArray)
  | directory
deriving Inhabited

/-- The entries below a root, and the place in which relative paths start. -/
structure FileTree where
  entries : List (Place × FileEntry)
  workingDirectory : Place
deriving Inhabited

namespace FileTree

/-- The tree in which there is nothing but the root. -/
def empty : FileTree := ⟨[], []⟩

/-- What is found at a place. The root is always there. -/
def entry? (t : FileTree) (place : Place) : Option FileEntry :=
  if place.isEmpty then some .directory
  else (t.entries.find? fun e => e.1 == place).map Prod.snd

/-- Whether there is a directory at a place. -/
def isDirectoryAt (t : FileTree) (place : Place) : Bool :=
  match t.entry? place with
  | some .directory => true
  | _ => false

/-! ### Building a tree -/

/-- Adds an entry at a place, unless there is one already. -/
def addEntry (t : FileTree) (place : Place) (entry : FileEntry) : FileTree :=
  if (t.entry? place).isSome then t else { t with entries := t.entries ++ [(place, entry)] }

/-- Adds a directory at a place, and those that lead to it. -/
def addDirectory (t : FileTree) (place : Place) : FileTree :=
  (List.range place.length).foldl (fun t n => t.addEntry (place.take (n + 1)) .directory) t

/-- Adds a file at a place, and the directories that lead to it. -/
def addFile (t : FileTree) (place : Place) (content : ByteArray) : FileTree :=
  (t.addDirectory place.dropLast).addEntry place (.file content)

/-- The place that a path names by its text alone, starting from another place. -/
def placeFrom (start : Place) (path : String) : Place :=
  let step (place : Place) (piece : String) : Place :=
    if Path.isIdle piece then place
    else if piece == ".." then place.dropLast
    else place ++ [piece]
  (Path.pieces path).foldl step (if Path.isAbsolute path then [] else start)

/-! ### Finding entries -/

/-- The number of bytes that a path must stay below. -/
def maxPathSize : Nat := 4096

/-- The greatest number of bytes of a name. -/
def maxNameSize : Nat := 255

/-- The place that is reached from another one along the pieces of a path. -/
def walk (t : FileTree) (place : Place) : List String → Except FileError Place
  | [] => .ok place
  | piece :: rest =>
    if ! t.isDirectoryAt place then .error .notADirectory
    else if Path.isIdle piece then t.walk place rest
    else if piece == ".." then t.walk place.dropLast rest
    else if maxNameSize < piece.utf8ByteSize then .error .nameTooLong
    else if (t.entry? (place ++ [piece])).isSome then t.walk (place ++ [piece]) rest
    else .error .notFound

/-- The place of the entry that a path leads to. The empty path leads nowhere. -/
def resolve (t : FileTree) (path : String) : Except FileError Place :=
  if path.contains '\x00' then .error .containsNul
  else if path.isEmpty then .error .notFound
  else if maxPathSize ≤ path.utf8ByteSize then .error .nameTooLong
  else t.walk (if Path.isAbsolute path then [] else t.workingDirectory) (Path.pieces path)

/-- The entry that a path leads to. -/
def lookUp (t : FileTree) (path : String) : Except FileError FileEntry :=
  (t.resolve path).bind fun place =>
    match t.entry? place with
    | some entry => .ok entry
    | none => .error .notFound

/-- Whether a path leads to anything. -/
def has (t : FileTree) (path : String) : Bool :=
  (t.lookUp path).isOk

/-- Whether a path leads to a file. -/
def isFile (t : FileTree) (path : String) : Bool :=
  match t.lookUp path with
  | .ok (.file _) => true
  | _ => false

/-- Whether a path leads to a directory. -/
def isDirectory (t : FileTree) (path : String) : Bool :=
  match t.lookUp path with
  | .ok .directory => true
  | _ => false

/-- The text of the file that a path leads to. -/
def readText (t : FileTree) (path : String) : Except FileError String :=
  match t.lookUp path with
  | .error e => .error e
  | .ok .directory => .error .isADirectory
  | .ok (.file content) =>
    match String.fromUTF8? content with
    | some text => .ok text
    | none => .error .notText

/-- The names of the entries of a directory at a place, sorted. -/
def namesAt (t : FileTree) (place : Place) : List String :=
  let names := t.entries.filterMap fun (other, _) =>
    if other.dropLast == place then other.getLast? else none
  names.mergeSort fun a b => decide (a ≤ b)

/-- The paths of the entries of the directory that a path leads to, in the order of their names. -/
def list (t : FileTree) (path : String) : Except FileError (List String) :=
  (t.resolve path).bind fun place =>
    if t.isDirectoryAt place then .ok ((t.namesAt place).map (Path.join path))
    else .error .notADirectory

end FileTree

end Reconcile
