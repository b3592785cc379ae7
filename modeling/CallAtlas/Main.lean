import CallAtlas.Calendar
import CallAtlas.CommandLine
import Std.Time.DateTime.Timestamp

/-!
The command line program: the files of the machine, and the output of a run.
-/

namespace CallAtlas.Machine

def faultOf : IO.Error → Fault
  | .noFileOrDirectory _ _ _ => .notFound
  | e => .other (toString e)

def isFile (path : String) : IO Bool := do
  try
    return (← (← IO.FS.realPath path).metadata).type == .file
  catch _ => return false

def read (path : String) : IO (Except Fault String) := do
  try
    if ← (← IO.FS.realPath path).isDir then
      return .error .isDirectory
    else
      match String.fromUTF8? (← IO.FS.readBinFile path) with
      | some text => return .ok text
      | none => return .error .notText
  catch e => return .error (faultOf e)

mutual

/-- What can be read of a directory. Links are files and are not followed. -/
partial def entries (found : IO (Array IO.FS.DirEntry)) : IO (List Entry) := do
  let found ← try found catch _ => pure #[]
  found.toList.filterMapM entry?

partial def entry? (e : IO.FS.DirEntry) : IO (Option Entry) := do
  try
    if (← e.path.symlinkMetadata).type == .dir then
      return some (.directory e.fileName (← entries e.path.readDir))
    else
      return some (.file e.fileName)
  catch _ => return none

end

def list? (path : String) : IO (Option Listing) := do
  try
    let dir ← IO.FS.realPath path
    if ← dir.isDir then
      return some ⟨dir.fileName, ← entries dir.readDir⟩
    else
      return none
  catch _ => return none

def write (path text : String) : IO (Except Fault Unit) := do
  try
    return .ok (← IO.FS.writeFile path text)
  catch e => return .error (faultOf e)

def disk : Disk IO := ⟨isFile, read, list?, write⟩

end CallAtlas.Machine

open CallAtlas in
def main (args : List String) : IO UInt32 := do
  let now ← Std.Time.Timestamp.now
  let outcome ← CommandLine.run Machine.disk (Calendar.stamp now.toSecondsSinceUnixEpoch.val.toNat) args
  IO.print outcome.output
  match outcome.failure with
  | some message => IO.eprintln ("Error: " ++ message)
  | none => if outcome.exit == 2 then IO.eprintln "error: unexpected arguments; try --help"
  return outcome.exit.toUInt32
