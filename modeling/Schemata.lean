import Schemata.Main
import Schemata.Proofs.Compilation.Admission
import Schemata.Proofs.Compilation.Layout
import Schemata.Proofs.Evaluation.Alternative
import Schemata.Proofs.Evaluation.Calls
import Schemata.Proofs.Evaluation.Coercion
import Schemata.Proofs.Evaluation.Conformance
import Schemata.Proofs.Evaluation.Order
import Schemata.Proofs.Evaluation.Place
import Schemata.Proofs.Evaluation.Publication
import Schemata.Proofs.Evaluation.Reading
import Schemata.Proofs.Evaluation.Sequence
import Schemata.Proofs.Evaluation.Suffix
import Schemata.Proofs.Evaluation.Verdict
import Schemata.Proofs.Language.Ending
import Schemata.Proofs.Language.Growth
import Schemata.Proofs.Language.Leaves
import Schemata.Proofs.Language.Yield
import Schemata.Proofs.Language.Spelling
import Schemata.Proofs.Language.Rendering
import Schemata.Proofs.Language.Written
import Schemata.Proofs.Compilation.Counterpart
import Schemata.Proofs.Compilation.Replacement
import Schemata.Proofs.Evaluation.Exchange
import Schemata.Proofs.Evaluation.Tags
import Schemata.Proofs.Evaluation.Permutation
import Schemata.Proofs.Compilation.Shapes
import Schemata.Proofs.Evaluation.Footprint
import Schemata.Proofs.Evaluation.Trace
import Schemata.Proofs.Language.Placement
import Schemata.Proofs.Language.Transcription
import Schemata.Proofs.Evaluation.Relations
import Schemata.Proofs.Evaluation.Integers
import Schemata.Proofs.Evaluation.Literals
import Schemata.Proofs.Evaluation.Dates
import Schemata.Proofs.Compilation.Table
import Schemata.Proofs.Language.Restoration
