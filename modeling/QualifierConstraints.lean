import QualifierConstraints.Ordered.Set
import QualifierConstraints.Ordered.Map
import QualifierConstraints.Text.CodeRanges
import QualifierConstraints.Text.Unprintable
import QualifierConstraints.Text.JoiningMark
import QualifierConstraints.Text.Quoted
import QualifierConstraints.Text.Decimal
import QualifierConstraints.Qualifier
import QualifierConstraints.Lattice
import QualifierConstraints.RuleTable
import QualifierConstraints.Types
import QualifierConstraints.Ordered.Sort
import QualifierConstraints.Resolution
import QualifierConstraints.Primaries
import QualifierConstraints.Record
import QualifierConstraints.Event
import QualifierConstraints.Request
import QualifierConstraints.ConstraintTable
import QualifierConstraints.Workspace
import QualifierConstraints.TableStore
import QualifierConstraints.Json.Reading
import QualifierConstraints.Json.Text
import QualifierConstraints.Json.Codec
import QualifierConstraints.Proofs.InsertionOrder
import QualifierConstraints.Proofs.FirstOccurrence
import QualifierConstraints.Proofs.Acceptance
import QualifierConstraints.Proofs.History
import QualifierConstraints.Proofs.Cells
import QualifierConstraints.Proofs.SeparateTables
import QualifierConstraints.Proofs.LastWrite
import QualifierConstraints.Proofs.Rejections
import QualifierConstraints.Proofs.TableRuns
import QualifierConstraints.Proofs.Unordered
import QualifierConstraints.Proofs.Origins
import QualifierConstraints.Proofs.WellFormedTables
import QualifierConstraints.Proofs.Registration
import QualifierConstraints.Proofs.FirstRegistration
import QualifierConstraints.Proofs.SubmissionOrder
import QualifierConstraints.Proofs.Validation
import QualifierConstraints.Proofs.GrowingLattice
import QualifierConstraints.Proofs.Growth
import QualifierConstraints.Proofs.EventLog
import QualifierConstraints.Proofs.KeyedAnswers
import QualifierConstraints.Proofs.TypeQualifiers
import QualifierConstraints.Proofs.Replays
import QualifierConstraints.Proofs.Batches
import QualifierConstraints.Proofs.LegibleTables
import QualifierConstraints.Proofs.JsonReading
import QualifierConstraints.Proofs.Represented
import QualifierConstraints.Proofs.PrimariesInStep
