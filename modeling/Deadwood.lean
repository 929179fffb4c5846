import Deadwood.Main
import Deadwood.Proofs.Outcome
import Deadwood.Proofs.Text
import Deadwood.Proofs.Path
import Deadwood.Proofs.Resolution
import Deadwood.Proofs.Discovery
import Deadwood.Proofs.Usage
import Deadwood.Proofs.Unused
import Deadwood.Proofs.RelativeImport
import Deadwood.Proofs.FileTree
import Deadwood.Proofs.Move
import Deadwood.Proofs.Cleanup
import Deadwood.Proofs.LedgerHistory
import Deadwood.Proofs.Stages
import Deadwood.Proofs.ForkJoin
import Deadwood.Proofs.Glob
import Deadwood.Proofs.Overlap
import Deadwood.Proofs.Outline
import Deadwood.Proofs.Isolation
import Deadwood.Proofs.ImportedPackage
import Deadwood.Proofs.Limits
import Deadwood.Proofs.TomlLimits
import Deadwood.Proofs.Selection
import Deadwood.Proofs.Manifest
import Deadwood.Proofs.Settings
import Deadwood.Proofs.MovedFiles
import Deadwood.Proofs.BackupFolder
import Deadwood.Proofs.SegmentStack
import Deadwood.Proofs.RelativeReference
import Deadwood.Proofs.UsableSettings
import Deadwood.Proofs.RunEnds
import Deadwood.Proofs.KnownFiles
import Deadwood.Proofs.SourceSpelling
import Deadwood.Proofs.Importer
import Deadwood.Proofs.PackageReference
import Deadwood.Proofs.StyleReference
import Deadwood.Proofs.Stylesheet
import Deadwood.Proofs.PaddedUrl
import Deadwood.Proofs.Recognition
import Deadwood.Proofs.WrittenImports
import Deadwood.Proofs.ParsedTree
import Deadwood.Proofs.ProjectSources
import Deadwood.Proofs.DeclaredPackages
import Deadwood.Proofs.IgnoreLaws
import Deadwood.Proofs.TomlTables
import Deadwood.Proofs.SettingsLayers
import Deadwood.Proofs.Ways
import Deadwood.Proofs.CleanupEffect
import Deadwood.Proofs.Utf8
import Deadwood.Proofs.Display
import Deadwood.Proofs.JsonText
import Deadwood.Proofs.TextFile
import Deadwood.Proofs.ReportText
import Deadwood.Proofs.TemplateLayout
import Deadwood.Proofs.TemplatePieces
