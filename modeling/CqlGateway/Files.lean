import CqlGateway.Failure

/-!
# Files

The files that a run of the gateway sees: the texts that they hold, by their paths, and the
directories that are there. Paths that differ in needless parts name the same file.
-/

namespace CqlGateway

namespace Path

/-- The parts of a path without needless ones, the last one in front. -/
def reducedParts (rooted : Bool) : List String → List String → List String
  | done, [] => done
  | done, part :: parts =>
    if part = "" || part = "." then reducedParts rooted done parts
    else if part = ".." then
      match done with
      | [] => reducedParts rooted (if rooted then [] else [part]) parts
      | last :: rest =>
        if last = ".." then reducedParts rooted (part :: done) parts
        else reducedParts rooted rest parts
    else reducedParts rooted (part :: done) parts

/-- Whether a path starts at the root. -/
def isRooted (path : String) : Bool :=
  path.toList.head? = some '/'

/-- The path of parts that are given in reverse. -/
def ofParts (rooted : Bool) (parts : List String) : String :=
  let joined := String.intercalate "/" parts.reverse
  if rooted then "/" ++ joined else if joined = "" then "." else joined

/-- The parts of a path, the last one in front. -/
def parts (path : String) : List String :=
  reducedParts (isRooted path) [] (path.splitOn "/")

/-- A path without needless parts. -/
def clean (path : String) : String :=
  ofParts (isRooted path) (parts path)

/-- The directories on the way to a path, the nearest one in front. -/
def ancestors (path : String) : List String :=
  (List.range (parts path).length).map fun i =>
    ofParts (isRooted path) ((parts path).drop (i + 1))

/-- The directory of a file. -/
def parent (path : String) : String :=
  (ancestors path).head?.getD (clean path)

end Path

structure Files where
  /-- Paths without needless parts and the texts that the files hold. -/
  texts : List (String × String) := []
  directories : List String := []
  deriving DecidableEq, Repr

namespace Files

def isDirectory (f : Files) (path : String) : Bool :=
  [".", "/"].contains (Path.clean path) || f.directories.contains (Path.clean path)

def get? (f : Files) (path : String) : Option String :=
  f.texts.lookup (Path.clean path)

def put (f : Files) (path text : String) : Files :=
  { f with texts := (Path.clean path, text) :: f.texts.filter (·.1 ≠ Path.clean path) }

/-- The nearest file on the way to a path, where only directories can be. -/
def obstacle? (f : Files) (path : String) : Option String :=
  (Path.ancestors path).find? fun p => (f.get? p).isSome

/-- What is wrong with a path at which there is nothing. -/
def absence (f : Files) (path : String) : String :=
  if (f.obstacle? path).isSome then "not a directory" else "no such file or directory"

/-- The text of a file, or why it cannot be read. -/
def read (f : Files) (path : String) : Except Failure String :=
  match f.get? path with
  | some text => .ok text
  | none =>
    if f.isDirectory path then .error (.foreign ("read " ++ path ++ ": is a directory"))
    else .error (.foreign ("open " ++ path ++ ": " ++ f.absence path))

/-- Whether a file can be made at a path. -/
def canHold (f : Files) (path : String) : Bool :=
  !f.isDirectory path && f.isDirectory (Path.parent path)

/-- The files with a directory and all directories on the way to it. -/
def makeDirectory (f : Files) (path : String) : Except Failure Files :=
  match (Path.clean path :: Path.ancestors path).find? fun p => (f.get? p).isSome with
  | some p => .error (.foreign ("mkdir " ++ p ++ ": not a directory"))
  | none =>
    .ok { f with
      directories :=
        f.directories
          ++ (Path.clean path :: Path.ancestors path).filter fun p => !f.isDirectory p }

end Files

end CqlGateway
