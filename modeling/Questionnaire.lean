import Questionnaire.Main
import Questionnaire.Store.Raw
import Questionnaire.Surface.Console
import Questionnaire.Surface.Web
import Questionnaire.Proofs.Turn.Contribution
import Questionnaire.Proofs.Turn.Course
import Questionnaire.Proofs.Turn.Failure
import Questionnaire.Proofs.Turn.Holdings
import Questionnaire.Proofs.Turn.Hops
import Questionnaire.Proofs.Turn.Identifiers
import Questionnaire.Proofs.Turn.Interview
import Questionnaire.Proofs.Turn.Rejection
import Questionnaire.Proofs.Turn.Reload
import Questionnaire.Proofs.Turn.Succession
import Questionnaire.Proofs.Condition.Completeness
import Questionnaire.Proofs.Condition.Printing
import Questionnaire.Proofs.State.Completion
import Questionnaire.Proofs.State.Rebuilding
import Questionnaire.Proofs.State.Rederiving
import Questionnaire.Proofs.Store.Replay
import Questionnaire.Proofs.Condition.Reporting
import Questionnaire.Proofs.Catalog.References
import Questionnaire.Proofs.State.Placement
import Questionnaire.Proofs.Catalog.Deciding
import Questionnaire.Proofs.Catalog.Legibility
import Questionnaire.Proofs.Catalog.Answering
import Questionnaire.Proofs.Surface.Web
import Questionnaire.Proofs.Turn.Interleaving
import Questionnaire.Proofs.State.Exhaustion
import Questionnaire.Proofs.State.Recomputing
import Questionnaire.Proofs.Answer.Amounts
import Questionnaire.Proofs.Number.Multiple
import Questionnaire.Proofs.Answer.Steps
import Questionnaire.Proofs.Text.Folding
import Questionnaire.Proofs.Text.Pieces
import Questionnaire.Proofs.Answer.Options
import Questionnaire.Proofs.Answer.Selections
import Questionnaire.Proofs.Answer.Judging
import Questionnaire.Proofs.Message.Plain
import Questionnaire.Proofs.Number.Numerals
import Questionnaire.Proofs.Answer.Readable
import Questionnaire.Proofs.Answer.Settling
import Questionnaire.Proofs.Answer.Notations
import Questionnaire.Proofs.Answer.Quoting
import Questionnaire.Proofs.Message.Typos
import Questionnaire.Proofs.Answer.Cells
import Questionnaire.Proofs.Condition.Checking
import Questionnaire.Proofs.Condition.Locating
import Questionnaire.Proofs.Json.Spelling
import Questionnaire.Proofs.Condition.Dependence
import Questionnaire.Proofs.Condition.Comparing
