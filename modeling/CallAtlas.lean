import CallAtlas.Analysis
import CallAtlas.Calendar
import CallAtlas.CommandLine
import CallAtlas.FileSystem
import CallAtlas.Main
import CallAtlas.Project
import CallAtlas.Proofs.Balance
import CallAtlas.Proofs.BrokenUnits
import CallAtlas.Proofs.Growth
import CallAtlas.Proofs.ImportTargets
import CallAtlas.Proofs.UnitOrder
import CallAtlas.Report.Format
import CallAtlas.Unit.OfSource
import CallAtlas.Proofs.ByteOrder
import CallAtlas.Proofs.DirTreeNodes
import CallAtlas.Proofs.ProjectEntries
import CallAtlas.Proofs.ProjectScan
import CallAtlas.Proofs.ScanAnalysis
import CallAtlas.Proofs.GraphReport
import CallAtlas.Proofs.MermaidReport
import CallAtlas.Proofs.CallSites
import CallAtlas.Proofs.Lowering
import CallAtlas.Proofs.DotStrings
import CallAtlas.Proofs.DotReport
import CallAtlas.Proofs.PackageTree
import CallAtlas.Proofs.FirstOccurrence
import CallAtlas.Proofs.RegistryHistory
import CallAtlas.Proofs.CallerKeys
import CallAtlas.Proofs.PathOwners
import CallAtlas.Proofs.Ranking
import CallAtlas.Proofs.ProgramStarts
import CallAtlas.Proofs.DirTreeGrowth
import CallAtlas.Proofs.DirTreeEdits
import CallAtlas.Proofs.DirTreeOrder
import CallAtlas.Proofs.DirTreeText
import CallAtlas.Proofs.PackagePaths
import CallAtlas.Proofs.ImportNames
import CallAtlas.Proofs.UnitDirectories
import CallAtlas.Proofs.ModuleDirective
import CallAtlas.Proofs.ReceiverNames
