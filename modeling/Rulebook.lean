import Rulebook.Main
import Rulebook.Matcher.Plan
import Rulebook.Proofs.Advance
import Rulebook.Proofs.CommandReport
import Rulebook.Proofs.CommentEnd
import Rulebook.Proofs.Composition
import Rulebook.Proofs.DanglingNames
import Rulebook.Proofs.DebugOutput
import Rulebook.Proofs.DelimitedText
import Rulebook.Proofs.EscapedLiteral
import Rulebook.Proofs.FileText
import Rulebook.Proofs.FlatTree
import Rulebook.Proofs.ForeignNodes
import Rulebook.Proofs.LeafOrder
import Rulebook.Proofs.LineEnds
import Rulebook.Proofs.LineFormat
import Rulebook.Proofs.LineOrder
import Rulebook.Proofs.LineReading
import Rulebook.Proofs.Locality
import Rulebook.Proofs.MentionOrder
import Rulebook.Proofs.Movement
import Rulebook.Proofs.OnePass
import Rulebook.Proofs.PositionDiscipline
import Rulebook.Proofs.PrintedTable
import Rulebook.Proofs.PrintedTree
import Rulebook.Proofs.Regrouping
import Rulebook.Proofs.RuleAddition
import Rulebook.Proofs.SeparatedChain
import Rulebook.Proofs.SessionHistory
import Rulebook.Proofs.Spelling
import Rulebook.Proofs.SplicingRounds
import Rulebook.Proofs.TableReading
import Rulebook.Proofs.TextTrace
import Rulebook.Proofs.TokenPatterns
import Rulebook.Proofs.TreeMatching
import Rulebook.Proofs.Utf8Decoding
import Rulebook.Table.Session
