import GraphSnapshot.Archive.Outcomes
import GraphSnapshot.Files
import GraphSnapshot.Graph.OfEdges
import GraphSnapshot.Version
import GraphSnapshot.Proofs.Outcome
import GraphSnapshot.Proofs.Payload.Reading
import GraphSnapshot.Proofs.Payload.Spelling
import GraphSnapshot.Proofs.Payload.Limits
import GraphSnapshot.Proofs.Header
import GraphSnapshot.Proofs.Archive.Storage
import GraphSnapshot.Proofs.Archive.Reachable
import GraphSnapshot.Proofs.Archive.Adding
import GraphSnapshot.Proofs.Archive.RoundTrip
import GraphSnapshot.Proofs.Checksum
import GraphSnapshot.Proofs.Graph.Built
import GraphSnapshot.Proofs.Snapshot.Entries
import GraphSnapshot.Proofs.Snapshot.Saving
import GraphSnapshot.Proofs.Snapshot.Loading
import GraphSnapshot.Proofs.Snapshot.RoundTrip
import GraphSnapshot.Proofs.Archive.Corruption
import GraphSnapshot.Proofs.Snapshot.Corruption
import GraphSnapshot.Proofs.Graph.WellFormed
import GraphSnapshot.Proofs.Snapshot.Returned
import GraphSnapshot.Proofs.Archive.Scopes
import GraphSnapshot.Proofs.Archive.Nesting
import GraphSnapshot.Proofs.Snapshot.Transaction
import GraphSnapshot.Proofs.Archive.Paths
import GraphSnapshot.Proofs.Snapshot.Embedding
import GraphSnapshot.Proofs.Snapshot.Independence
import GraphSnapshot.Proofs.Snapshot.Resaving
import GraphSnapshot.Proofs.Archive.Growth
import GraphSnapshot.Proofs.Snapshot.AppendOnly
import GraphSnapshot.Proofs.Archive.Made
import GraphSnapshot.Proofs.Snapshot.Exactness
import GraphSnapshot.Proofs.Payload.Fitting
import GraphSnapshot.Proofs.Snapshot.Navigation
import GraphSnapshot.Proofs.Archive.Emitting
import GraphSnapshot.Proofs.Archive.Restoring
import GraphSnapshot.Proofs.Snapshot.Failing
import GraphSnapshot.Proofs.Graph.Parts
import GraphSnapshot.Proofs.Snapshot.Typing
import GraphSnapshot.Proofs.Graph.Counting
import GraphSnapshot.Proofs.Graph.Grouping
import GraphSnapshot.Proofs.Graph.Rows
import GraphSnapshot.Proofs.Snapshot.Views
import GraphSnapshot.Proofs.Snapshot.Effect
import GraphSnapshot.Proofs.Snapshot.Observing
import GraphSnapshot.Proofs.Snapshot.Missing
import GraphSnapshot.Proofs.Snapshot.Refusing
import GraphSnapshot.Proofs.Archive.Opening
import GraphSnapshot.Proofs.Archive.Delimiting
import GraphSnapshot.Proofs.NumericArray.Acceptance
import GraphSnapshot.Proofs.NumericArray.Elements
import GraphSnapshot.Proofs.Snapshot.Settings
import GraphSnapshot.Proofs.Payload.Counting
import GraphSnapshot.Proofs.Files
import GraphSnapshot.Checksum.Adler32
import GraphSnapshot.Deflate.Bits
import GraphSnapshot.Deflate.Code
import GraphSnapshot.Deflate.CodeLengths
import GraphSnapshot.Deflate.Compress
