import CallAtlas.Analysis
import CallAtlas.Disk
import CallAtlas.GoMod
import CallAtlas.Report.Format
import CallAtlas.Settings
import CallAtlas.Unit.OfSource

/-!
The scan of a project, and the run from a directory to a written report.
-/

namespace CallAtlas

namespace Entry

def name : Entry → String
  | file n => n
  | directory n _ => n

mutual

def sort : Entry → Entry
  | file n => file n
  | directory n es => directory n ((sortAll es).mergeSort fun a b => a.name ≤ b.name)

def sortAll : List Entry → List Entry
  | [] => []
  | e :: es => e.sort :: sortAll es

end

end Entry

structure Found where
  path : String
  isDir : Bool
  deriving DecidableEq

namespace Found

def isGo (f : Found) : Bool := !f.isDir && Text.endsWith f.path ".go"

def isTest (f : Found) : Bool := !f.isDir && isTestPath f.path

mutual

/-- An entry and all below it, each directory before what stands in it. Directories that are skipped are
left out with all below them. -/
def below (skipped : List String) (above : String) : Entry → List Found
  | .file name => [⟨above ++ name, false⟩]
  | .directory name es =>
    if skipped.contains name then []
    else ⟨above ++ name, true⟩ :: belowAll skipped (above ++ name ++ "/") es

def belowAll (skipped : List String) (above : String) : List Entry → List Found
  | [] => []
  | e :: es => below skipped above e ++ belowAll skipped above es

end

def all (skipped : List String) (entries : List Entry) : List Found :=
  belowAll skipped "" ((Entry.sortAll entries).mergeSort fun a b => a.name ≤ b.name)

end Found

def Census.ofFound (found : List Found) : Census where
  totalFiles := found.countP fun f => !f.isDir
  goFiles := found.countP Found.isGo
  testFiles := found.countP Found.isTest
  directories := found.countP Found.isDir
  nonGoFiles := found.countP fun f => !f.isDir && !f.isGo

def DirTree.ofFound (rootName : String) (found : List Found) : DirTree :=
  (found.foldl (fun (t : DirTree) f => t.insert f.path f.isDir) (root rootName)).sort

namespace Project

def sourcePaths (includesTests : Bool) (found : List Found) : List String :=
  (found.filter fun f => f.isGo && (includesTests || !f.isTest)).map Found.path

structure SourceText where
  path : String
  contents : Except Fault String

structure Scan where
  rootName : String
  census : Census
  sources : List SourceText
  tree : DirTree
  module : Option String

variable {m : Type → Type} [Monad m]

def readModule (disk : Disk m) (path : String) : ExceptT RunError m (Option String) := do
  let path := Path.join path "go.mod"
  if ← disk.isFile path then
    match ← disk.read path with
    | .ok text => return GoMod.modulePath? text
    | .error _ => throw (.unreadable path)
  else
    return none

def scan (disk : Disk m) (settings : Settings) (path : String) : ExceptT RunError m Scan := do
  match ← disk.list? path with
  | none => throw (.notDirectory path)
  | some listing =>
    let rootName := listing.name.getD path
    let found := Found.all settings.skippedDirs listing.entries
    let sources ← (sourcePaths settings.includesTests found).mapM fun p => do
      return SourceText.mk p (← disk.read (Path.join path p))
    return {
      rootName := rootName
      census := .ofFound found
      sources := sources
      tree := .ofFound rootName found
      module := ← readModule disk path }

abbrev UnitReader := String → String → Except ParseFailure SourceUnit

def SourceText.input (reader : UnitReader) (s : SourceText) : UnitInput where
  path := s.path
  parsed :=
    match s.contents with
    | .ok text => reader s.path text
    | .error fault => .error (.unreadable fault.message)

def Scan.analyze (reader : UnitReader) (s : Scan) : CodeModel :=
  CallAtlas.analyze s.rootName s.module (s.sources.map (SourceText.input reader))

structure Job where
  path : String
  output : String
  format : Format
  settings : Settings
  createdAt : String

def Job.report (job : Job) (s : Scan) (model : CodeModel) : Report :=
  ⟨model, some s.census, some s.tree, job.createdAt, job.settings.limit⟩

def Job.run (disk : Disk m) (job : Job) : ExceptT RunError m (Scan × CodeModel) := do
  let s ← scan disk job.settings job.path
  let model := s.analyze fun _ => SourceUnit.ofSource
  match ← disk.write job.output ((job.report s model).render job.format) with
  | .ok () => return (s, model)
  | .error _ => throw (.unwritable job.output)

end Project

end CallAtlas
