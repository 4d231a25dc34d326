import OData.Client.Upsert
import OData.Main
import OData.Poll.Clock
import OData.Poll.Subscribe
import OData.Proofs.Filter.Acceptance
import OData.Proofs.Filter.JsonRoundTrip
import OData.Proofs.Filter.Readable
import OData.Proofs.Query.Structure
import OData.Proofs.Client.Conversation
import OData.Proofs.Client.Retry
import OData.Proofs.Client.Transmission
import OData.Proofs.Query.Parameters
import OData.Proofs.Client.Prepared
import OData.Proofs.Client.Upsert
import OData.Proofs.Client.Refusal
import OData.Proofs.Client.GetOrCreate
import OData.Proofs.Poll.Loops
import OData.Proofs.Poll.Interval
import OData.Proofs.Poll.Silence
import OData.Proofs.Poll.Delivery
import OData.Proofs.Poll.Settling
import OData.Proofs.Query.Count
import OData.Proofs.Literal.Reader
import OData.Proofs.Options.Reader
import OData.Proofs.Options.Holes
import OData.Proofs.Filter.Template
import OData.Proofs.Uri.OnePass
import OData.Proofs.Uri.Segments
import OData.Proofs.Query.Alias
import OData.Proofs.Options.Reports
import OData.Proofs.Client.Passthrough
import OData.Proofs.Filter.Alternatives
import OData.Proofs.Poll.Schedule
import OData.Proofs.Diagnostics
import OData.Proofs.Client.ServerDelay
import OData.Proofs.Options.History
import OData.Proofs.Query.Permission
