import MetadataClient.Main
import MetadataClient.Pool.Desk
import MetadataClient.Pool.Numbered
import MetadataClient.Semantics.Builder
import MetadataClient.Semantics.Json
import MetadataClient.Semantics.Text
import MetadataClient.Session
import MetadataClient.Proofs.DocumentStore.Transaction
import MetadataClient.Proofs.Pool.Capacity
import MetadataClient.Proofs.Queue.Delivery
import MetadataClient.Proofs.Client.Catalog
import MetadataClient.Proofs.Client.Listing
import MetadataClient.Proofs.DocumentStore.Refinement
import MetadataClient.Proofs.DocumentStore.Search
import MetadataClient.Proofs.Pool.Safety
import MetadataClient.Proofs.Pool.Waking
import MetadataClient.Proofs.Queue.Atomicity
import MetadataClient.Proofs.Queue.Deferral
import MetadataClient.Proofs.Document.Depth
import MetadataClient.Proofs.DocumentStore.Readings
import MetadataClient.Proofs.DocumentStore.Readability
import MetadataClient.Proofs.Client.Restart
import MetadataClient.Proofs.CommandLine.Writing
import MetadataClient.Proofs.Client.Connections
import MetadataClient.Proofs.Client.Course
import MetadataClient.Proofs.Queue.Arrivals
import MetadataClient.Proofs.DocumentStore.Numbering
import MetadataClient.Proofs.DocumentStore.Deletion
import MetadataClient.Proofs.DocumentStore.Erasure
import MetadataClient.Proofs.Semantics.Text
import MetadataClient.Proofs.Uuid.Reading
import MetadataClient.Proofs.Collection.Recognition
import MetadataClient.Proofs.Collection.RoundTrip
import MetadataClient.Proofs.Queue.Bound
import MetadataClient.Proofs.Semantics.Absorption
import MetadataClient.Proofs.Semantics.Editing
import MetadataClient.Proofs.Semantics.Layout
import MetadataClient.Proofs.Document.Canonical
import MetadataClient.Proofs.Pool.Reuse
