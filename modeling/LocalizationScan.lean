import LocalizationScan.Main
import LocalizationScan.Proofs.BlankSeparators
import LocalizationScan.Proofs.BrokenLines
import LocalizationScan.Proofs.CSharp.EncodedLiterals
import LocalizationScan.Proofs.CSharp.PrintedLiterals
import LocalizationScan.Proofs.Config.Location
import LocalizationScan.Proofs.DeclaredNames
import LocalizationScan.Proofs.Driver.Consistency
import LocalizationScan.Proofs.Files.Discovery
import LocalizationScan.Proofs.KeywordCase
import LocalizationScan.Proofs.LiteralForms
import LocalizationScan.Proofs.LongerText
import LocalizationScan.Proofs.MarkedLiterals
import LocalizationScan.Proofs.MarkerComments
import LocalizationScan.Proofs.Markup.ClientMarkup
import LocalizationScan.Proofs.PrintedScopes
import LocalizationScan.Proofs.QuotedTexts
import LocalizationScan.Proofs.Reference.EntryOrder
import LocalizationScan.Proofs.Reference.LeftEnds
import LocalizationScan.Proofs.Reference.PreferredOrigin
import LocalizationScan.Proofs.Relocation
import LocalizationScan.Proofs.Report.DocumentOrder
import LocalizationScan.Proofs.Report.Unlocalizable
import LocalizationScan.Proofs.Resource.Documents
import LocalizationScan.Proofs.Resource.Origins
import LocalizationScan.Proofs.Scope.Operations
import LocalizationScan.Proofs.Scan.Continuations
import LocalizationScan.Proofs.SourceLines
import LocalizationScan.Proofs.SourceOrder
import LocalizationScan.Proofs.StatementBreaks
import LocalizationScan.Proofs.Trie.Search
import LocalizationScan.Proofs.Scan.Continuations
