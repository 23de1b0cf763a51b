import Shorthand.Main
import Shorthand.Store.Shelf
import Shorthand.Store.Tree
import Shorthand.Proofs.Simultaneous
import Shorthand.Proofs.Residue
import Shorthand.Proofs.Changes
import Shorthand.Proofs.RunEffect
import Shorthand.Proofs.ReportDocument
import Shorthand.Proofs.DelimitedRecords
import Shorthand.Proofs.LineBreaks
import Shorthand.Proofs.Arguments
import Shorthand.Proofs.CommandRuns
import Shorthand.Proofs.PrintedLines
import Shorthand.Proofs.QueryTexts
import Shorthand.Proofs.QueryLines
import Shorthand.Proofs.TreeWrites
import Shorthand.Proofs.TreeHistories
import Shorthand.Proofs.Routes
import Shorthand.Proofs.Filing
import Shorthand.Proofs.Checks
import Shorthand.Proofs.Reruns
import Shorthand.Proofs.Containment
import Shorthand.Proofs.ExitCodes
import Shorthand.Proofs.AskedPaths
import Shorthand.Proofs.OptionOrder
import Shorthand.Proofs.QueryEntries
import Shorthand.Proofs.BatchDocument
import Shorthand.Proofs.TomlDocuments
import Shorthand.Proofs.PassOrder
import Shorthand.Proofs.Separators
import Shorthand.Proofs.ReportLines
import Shorthand.Proofs.Templates
