import Wireform.Catalogue.Identifiers
import Wireform.Derive.Rendering
import Wireform.Packet.Dispatcher
import Wireform.Rule
import Wireform.Schema.Inspect
import Wireform.Ty.Shorthand
import Wireform.Proofs.Answer
import Wireform.Proofs.Memory
import Wireform.Proofs.Indifference
import Wireform.Proofs.Client
import Wireform.Proofs.Shape
import Wireform.Proofs.Parts
import Wireform.Proofs.Wire
import Wireform.Proofs.Derived
import Wireform.Proofs.Reads
import Wireform.Proofs.RoundTrip
import Wireform.Proofs.Stream
import Wireform.Proofs.Order
import Wireform.Proofs.Yields
import Wireform.Proofs.Depth
import Wireform.Proofs.Soundness
import Wireform.Proofs.Forward
import Wireform.Proofs.Spelling
import Wireform.Proofs.Canonical
import Wireform.Proofs.Gauge
import Wireform.Proofs.Nesting
import Wireform.Proofs.Conveys
import Wireform.Proofs.Likeness
import Wireform.Proofs.Lawful
import Wireform.Proofs.BuiltinLaws
import Wireform.Proofs.Recipes
import Wireform.Proofs.Extension
import Wireform.Proofs.Loopholes
import Wireform.Proofs.Journal
import Wireform.Proofs.Survey
import Wireform.Proofs.Limits
import Wireform.Proofs.Registrations
import Wireform.Proofs.Vouching
import Wireform.Proofs.Faithful
import Wireform.Proofs.Frames
import Wireform.Proofs.Framing
import Wireform.Proofs.Blocks
import Wireform.Proofs.Compression
import Wireform.Proofs.Enrolment
import Wireform.Proofs.Formats
import Wireform.Proofs.Requests
import Wireform.Proofs.Alignment
import Wireform.Proofs.Fragments
import Wireform.Proofs.Failures
import Wireform.Proofs.Counterparts
import Wireform.Proofs.Gathering
import Wireform.Proofs.Decoded
import Wireform.Proofs.Collections
import Wireform.Proofs.Combinators
import Wireform.Proofs.Reach
import Wireform.Proofs.Tally
import Wireform.Proofs.Payment
import Wireform.Proofs.Priorities
import Wireform.Proofs.Composed
import Wireform.Proofs.Modes
import Wireform.Proofs.Learning
import Wireform.Proofs.Census
import Wireform.Proofs.Recollection
import Wireform.Proofs.Recovery
import Wireform.Proofs.Renewal
import Wireform.Proofs.Regained
import Wireform.Proofs.Growth
import Wireform.Proofs.Restoring
import Wireform.Proofs.Dispatch
import Wireform.Proofs.Naming
import Wireform.Proofs.Flags
import Wireform.Proofs.Quoting
import Wireform.Proofs.Locality
import Wireform.Proofs.Entries
import Wireform.Proofs.Members
import Wireform.Proofs.Grouping
import Wireform.Proofs.Stripping
