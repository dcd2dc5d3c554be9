import CqlGateway.CommandLine.Commands
import Std.Time.DateTime.Timestamp

/-!
# The command line

The outermost layer: it takes the words, the variables and the files from the system, lets the
gateway run on them, and puts back what has changed.
-/

namespace CqlGateway.CommandLine

inductive Found where
  | nothing
  | directory
  | text (content : String)

/-- The text of bytes. Bytes that are no text stand for the characters of the same numbers. -/
def textOfBytes (bytes : ByteArray) : String :=
  match String.fromUTF8? bytes with
  | some s => s
  | none => String.ofList (bytes.toList.map fun b => Char.ofNat b.toNat)

def look (path : String) : IO Found := do
  try
    return .text (textOfBytes (← IO.FS.readBinFile path))
  catch
    | .noFileOrDirectory .. => return .nothing
    | _ => return .directory

def gather (files : Files) (path : String) : IO Files := do
  match ← look path with
  | .nothing => return files
  | .directory => return { files with directories := Path.clean path :: files.directories }
  | .text content => return files.put path content

/-- The files with what is at some paths and on the way to them. -/
def gatherAll (files : Files) (paths : List String) : IO Files :=
  (paths.flatMap fun path => path :: Path.ancestors path).foldlM gather files

/-- The value of a variable, empty if it is not set. -/
def valueOf (name : String) : IO (String × String) := do
  return (name, (← IO.getEnv name).getD "")

def putBack (before after : Files) : IO Unit := do
  for directory in after.directories do
    if !before.isDirectory directory then IO.FS.createDirAll directory
  for (path, text) in after.texts do
    if before.get? path ≠ some text then IO.FS.writeFile path text

/-- What the system gives to a run. There is no connection to anything but files. -/
def surroundings (words : List String) : IO Surroundings := do
  let values ← Settings.variableNames.mapM valueOf
  let input ← if readsInput words then (← IO.getStdin).readToEnd else pure ""
  let time ← Std.Time.Timestamp.now
  return {
    environment := fun name => (values.lookup name).getD ""
    input := input
    now := time.toSecondsSinceUnixEpoch.val
    send := fun _ => .failed (.foreign "connection refused")
    connect := fun _ => .error (.foreign "connection refused") }

end CqlGateway.CommandLine

open CqlGateway CqlGateway.CommandLine

def main (words : List String) : IO UInt32 := do
  let s ← surroundings words
  let files ← gatherAll {} (namedPaths s words)
  let files ← gatherAll files (settledPaths s files words)
  let ended := run s files words
  putBack files ended.world.files
  IO.print ended.world.out
  IO.eprint (ended.world.err ++ ended.complaint)
  return if ended.failure?.isSome then 1 else 0
