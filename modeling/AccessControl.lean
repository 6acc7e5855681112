import AccessControl.Ace.Layout
import AccessControl.Acl.Layout
import AccessControl.Descriptor.Layout
import AccessControl.Main
import AccessControl.Verbosity.Reading
import AccessControl.Proofs.Reading
import AccessControl.Proofs.Ace.Reading
import AccessControl.Proofs.Ace.RoundTrip
import AccessControl.Proofs.Positions
import AccessControl.Proofs.Ace.Grammar
import AccessControl.Proofs.Spans
import AccessControl.Proofs.Ace.Faults
import AccessControl.Proofs.Ace.Lossless
import AccessControl.Proofs.Acl.Reading
import AccessControl.Proofs.Acl.RoundTrip
import AccessControl.Proofs.Descriptor.Reading
import AccessControl.Proofs.Descriptor.RoundTrip
import AccessControl.Proofs.Acl.Lossless
import AccessControl.Proofs.Truncation
import AccessControl.Proofs.Acl.Scan
import AccessControl.Proofs.Acl.Count
import AccessControl.Proofs.Checked.Basic
import AccessControl.Proofs.Checked.Reader
import AccessControl.Proofs.Checked.Conservation
import AccessControl.Proofs.Checked.Decoders
import AccessControl.Proofs.Bounds
import AccessControl.Proofs.Descriptor.Components
import AccessControl.Proofs.Descriptor.Extent
import AccessControl.Proofs.Strictness
import AccessControl.Proofs.Descriptor.Normalization
import AccessControl.Proofs.Locations
import AccessControl.Proofs.Classification
import AccessControl.Proofs.Text.Separation
import AccessControl.Proofs.Text.Words
import AccessControl.Proofs.Text.Parts
import AccessControl.Proofs.Sid.Grammar
import AccessControl.Proofs.Guid
import AccessControl.Proofs.Guid.Grammar
import AccessControl.Proofs.Guid.Order
import AccessControl.Proofs.FlagSet
import AccessControl.Proofs.FlagSet.Members
import AccessControl.Proofs.Report.Entry
import AccessControl.Proofs.Report.Text
import AccessControl.Proofs.Json.Strings
import AccessControl.Proofs.Json.Readable
import AccessControl.Proofs.Report.Json
import AccessControl.Proofs.Report.Writes
import AccessControl.Proofs.Events.Entry
import AccessControl.Proofs.Events.Decoding
import AccessControl.Proofs.Events.Slack
import AccessControl.Proofs.Base64
import AccessControl.Proofs.Command.Steps
import AccessControl.Proofs.Command.Switches
import AccessControl.Proofs.Command.Given
import AccessControl.Proofs.Command.Grammar
import AccessControl.Proofs.Command.Outcome
import AccessControl.Proofs.Command.Encoded
import AccessControl.Proofs.Command.Limited
import AccessControl.Proofs.Command.Order
