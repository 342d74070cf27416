import SourceJump.Lookup.Session
import SourceJump.Main
import SourceJump.Proofs.Buffer.Progress
import SourceJump.Proofs.Lookup.Discipline
import SourceJump.Proofs.Lookup.OpenedFile
import SourceJump.Proofs.Lookup.Wildcards
import SourceJump.Proofs.Java.ClassImports
import SourceJump.Proofs.Buffer.RegexReaders
import SourceJump.Proofs.Java.ClassImportRegex
import SourceJump.Proofs.Lookup.ClassImport
import SourceJump.Proofs.Java.DottedName
import SourceJump.Proofs.Java.TypeParameters
import SourceJump.Proofs.Java.HeaderRegex
import SourceJump.Proofs.Java.BaseClass
import SourceJump.Proofs.CommandLine.Failures
import SourceJump.Proofs.Lookup.BaseClassAtCursor
import SourceJump.Proofs.Lookup.ImportAtCursor
import SourceJump.Proofs.Lookup.CommentedOut
import SourceJump.Proofs.Lookup.History
import SourceJump.Proofs.Java.SourcePath
import SourceJump.Proofs.Config.Documents
import SourceJump.Proofs.Config.Usable
import SourceJump.Proofs.Java.LineEnds
import SourceJump.Proofs.Lookup.NamesInBuffer
import SourceJump.Proofs.Lookup.Confined
import SourceJump.Proofs.Lookup.LineEnds
import SourceJump.Proofs.Config.Precedence
import SourceJump.Proofs.Lookup.Growth
import SourceJump.Proofs.CommandLine.Launches
import SourceJump.Proofs.Lookup.Sibling
import SourceJump.Proofs.Position
import SourceJump.Proofs.Lookup.ImportLine
import SourceJump.Proofs.Config.Leaves
import SourceJump.Proofs.Lookup.BehindModifiers
import SourceJump.Proofs.Buffer.Word
import SourceJump.Proofs.Position.Line
import SourceJump.Proofs.Lookup.OwnClass
