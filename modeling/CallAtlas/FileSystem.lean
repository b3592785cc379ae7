import CallAtlas.Disk
import CallAtlas.Text.Basic

/-!
Files in memory.
-/

namespace CallAtlas

inductive FileNode where
  | file (contents : ByteArray)
  | directory (entries : List (String × FileNode))
  | link (target : String)

namespace FileNode

def entries : FileNode → List (String × FileNode)
  | directory es => es
  | file _ | link _ => []

def child? (node : FileNode) (name : String) : Option FileNode :=
  (node.entries.find? (·.1 == name)).map Prod.snd

def at? (node : FileNode) : List String → Option FileNode
  | [] => some node
  | name :: path => (node.child? name).bind (·.at? path)

def setEntry (name : String) (node : FileNode) : List (String × FileNode) → List (String × FileNode)
  | [] => [(name, node)]
  | (n, old) :: rest => if n == name then (n, node) :: rest else (n, old) :: setEntry name node rest

def put (new : FileNode) : List String → FileNode → FileNode
  | [], _ => new
  | name :: path, node =>
    let old := (node.child? name).getD (directory [])
    directory (setEntry name (put new path old) node.entries)

mutual

def listing (name : String) : FileNode → Entry
  | directory es => .directory name (listingAll es)
  | file _ | link _ => .file name

def listingAll : List (String × FileNode) → List Entry
  | [] => []
  | (name, node) :: rest => listing name node :: listingAll rest

end

end FileNode

structure FileSystem where
  root : FileNode
  here : List String

namespace FileSystem

def empty (here : List String) : FileSystem := ⟨.put (.directory []) here (.directory []), here⟩

def parts (path : String) : List String :=
  (Text.pieces (· == '/') path.toList).map String.ofList

inductive Place where
  | found (path : List String)
  /-- Only the last part of the path is missing. -/
  | vacant (dir : List String) (name : String)

/-- Follows the parts of a path from a directory, through at most `hops` links. -/
def follow (fs : FileSystem) (hops : Nat) (dir : List String) : List String → Except Fault Place
  | [] => .ok (.found dir)
  | part :: rest =>
    match fs.root.at? dir with
    | some (.directory es) =>
      if part = "" || part = "." then follow fs hops dir rest
      else if part = ".." then follow fs hops dir.dropLast rest
      else
        match (FileNode.directory es).child? part with
        | none => if rest.isEmpty then .ok (.vacant dir part) else .error .notFound
        | some (.link target) =>
          match hops with
          | 0 => .error .tooManyLinks
          | hops + 1 =>
            if target.startsWith "/" then .error .notFound
            else follow fs hops dir (parts target ++ rest)
        | some _ => follow fs hops (dir ++ [part]) rest
    | _ => .error .notDirectory
termination_by path => (hops, path.length)

/-- Where a relative path leads. Nothing stands at an absolute one. -/
def locate (fs : FileSystem) (path : String) : Except Fault Place :=
  if path = "" || path.startsWith "/" then .error .notFound
  else fs.follow 40 fs.here (parts path)

def node (fs : FileSystem) (path : String) : Except Fault (List String × FileNode) := do
  match ← fs.locate path with
  | .vacant _ _ => .error .notFound
  | .found p =>
    match fs.root.at? p with
    | some n => .ok (p, n)
    | none => .error .notFound

def isFile (fs : FileSystem) (path : String) : Bool :=
  match fs.node path with
  | .ok (_, .file _) => true
  | _ => false

def read (fs : FileSystem) (path : String) : Except Fault String := do
  match ← fs.node path with
  | (_, .file contents) =>
    match String.fromUTF8? contents with
    | some text => .ok text
    | none => .error .notText
  | _ => .error .isDirectory

def list? (fs : FileSystem) (path : String) : Option Listing :=
  match fs.node path with
  | .ok (p, .directory es) => some ⟨p.getLast?, FileNode.listingAll es⟩
  | _ => none

def write (fs : FileSystem) (path text : String) : Except Fault FileSystem := do
  let put (p : List String) : FileSystem := { fs with root := .put (.file text.toUTF8) p fs.root }
  match ← fs.locate path with
  | .vacant dir name => .ok (put (dir ++ [name]))
  | .found p =>
    match fs.root.at? p with
    | some (.file _) => .ok (put p)
    | _ => .error .isDirectory

/-- Puts a node at a relative path, together with the directories above it. A directory that is there
already stays as it is. -/
def create (fs : FileSystem) (path : String) (node : FileNode) : FileSystem :=
  let p := fs.here ++ (parts path).filter fun part => part != "" && part != "."
  match node, fs.root.at? p with
  | .directory [], some (.directory _) => fs
  | _, _ => { fs with root := .put node p fs.root }

def disk : Disk (StateM FileSystem) where
  isFile path := return (← get).isFile path
  read path := return (← get).read path
  list? path := return (← get).list? path
  write path text := do
    match (← get).write path text with
    | .ok fs =>
      set fs
      return .ok ()
    | .error fault => return .error fault

end FileSystem

end CallAtlas
