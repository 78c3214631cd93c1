import RecordAddress.Entries
import RecordAddress.Token
import RecordAddress.MemberName
import RecordAddress.Text.Quoted
import RecordAddress.Text.NamingStyle
import RecordAddress.Value
import RecordAddress.Value.Elements
import RecordAddress.Value.Display
import RecordAddress.Value.Json
import RecordAddress.ArrayIndex.Check
import RecordAddress.Location.Resolution
import RecordAddress.Sentinel
import RecordAddress.Schema.Field
import RecordAddress.Schema.Class
import RecordAddress.Schema.Opening
import RecordAddress.Schema.Memory
import RecordAddress.Registry
import RecordAddress.Amendments.Class
import RecordAddress.Context
import RecordAddress.Value.Parts
import RecordAddress.Record.Route
import RecordAddress.Pointer.Parsing
import RecordAddress.Pointer.Access
import RecordAddress.Report
import RecordAddress.Session
import RecordAddress.Session.Run
import RecordAddress.Proofs.RecordData
import RecordAddress.Proofs.Outcomes
import RecordAddress.Proofs.Reading
import RecordAddress.Proofs.Atomicity
import RecordAddress.Proofs.PriorValue
import RecordAddress.Proofs.Actions
import RecordAddress.Proofs.Slots
import RecordAddress.Proofs.Writes
import RecordAddress.Proofs.Changes
import RecordAddress.Proofs.Frame
import RecordAddress.Proofs.Grammar
import RecordAddress.Proofs.Opened
import RecordAddress.Proofs.Acceptance
import RecordAddress.Proofs.Definitions
import RecordAddress.Proofs.Guarded
import RecordAddress.Proofs.Remembered
import RecordAddress.Proofs.DirectReading
import RecordAddress.Proofs.Refusals
import RecordAddress.Proofs.Genuine
import RecordAddress.Proofs.Inert
import RecordAddress.Proofs.Reopening
import RecordAddress.Proofs.Forgetting
import RecordAddress.Proofs.Lookups
import RecordAddress.Proofs.Accesses
import RecordAddress.Proofs.Mirroring
import RecordAddress.Proofs.Laziness
import RecordAddress.Proofs.Positions
import RecordAddress.Proofs.Representations
import RecordAddress.Proofs.Lasting
import RecordAddress.Proofs.Steps
import RecordAddress.Proofs.Chains
import RecordAddress.Proofs.Stepwise
import RecordAddress.Proofs.Printing
import RecordAddress.Proofs.Safety
import RecordAddress.Proofs.Locality
import RecordAddress.Proofs.Commuting
import RecordAddress.Proofs.Keeping
import RecordAddress.Proofs.ArrayRuns
import RecordAddress.Proofs.Resolution
import RecordAddress.Proofs.Defining
import RecordAddress.Proofs.Linearizing
import RecordAddress.Proofs.Registering
import RecordAddress.Proofs.Inheritance
import RecordAddress.Proofs.Declarations
import RecordAddress.Proofs.Recurrence
import RecordAddress.Proofs.Entrances
import RecordAddress.Proofs.Sites
import RecordAddress.Proofs.NameClashes
import RecordAddress.Proofs.Overwriting
import RecordAddress.Proofs.Editability
import RecordAddress.Proofs.Removing
import RecordAddress.Proofs.Ancestry
import RecordAddress.Proofs.Misuses
import RecordAddress.Proofs.PastTheEnd
import RecordAddress.Proofs.Undoing
import RecordAddress.Proofs.Tracing
import RecordAddress.Proofs.Obstacles
import RecordAddress.Proofs.Dashes
import RecordAddress.Proofs.Charts
import RecordAddress.Proofs.Trails
import RecordAddress.Proofs.Usability
import RecordAddress.Proofs.Aliasing
import RecordAddress.Proofs.Namesakes
import RecordAddress.Proofs.RecordTypes
import RecordAddress.Proofs.Composing
import RecordAddress.Proofs.Encoding
import RecordAddress.Proofs.Splitting
import RecordAddress.Proofs.Patterns
import RecordAddress.Proofs.Indices
import RecordAddress.Proofs.PlainNames
