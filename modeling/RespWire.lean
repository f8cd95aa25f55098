import RespWire.Cluster.Node
import RespWire.Command.Choice
import RespWire.Event
import RespWire.Keyspace.Expiry
import RespWire.Keyspace.Scan
import RespWire.Keyspace.SortQuery
import RespWire.Proofs.Number.FewestDigits
import RespWire.Proofs.Resp.Wire
import RespWire.Proofs.SortedSet.Scores
import RespWire.Resp.Describe
import RespWire.Resp.Wire
import RespWire.SortedSet.Interval
import RespWire.Version
import RespWire.Proofs.Number.Decimal
import RespWire.Proofs.Number.Reading
import RespWire.Proofs.Number.Shortest
import RespWire.Proofs.Keyspace.SortQuery
import RespWire.Proofs.Keyspace.Scan
import RespWire.Proofs.Text.Words
import RespWire.Proofs.Collection.Dictionary
import RespWire.Proofs.Report.Lines
import RespWire.Proofs.Report.Layout
import RespWire.Proofs.Cluster.Slot
import RespWire.Proofs.Cluster.Topology
import RespWire.Proofs.Report.Sentinel
import RespWire.Proofs.Report.Flattened
import RespWire.Proofs.SortedSet.Bounds
import RespWire.Proofs.Number.Integers
import RespWire.Proofs.SortedSet.Integers
import RespWire.Proofs.SortedSet.Listing
import RespWire.Proofs.Keyspace.Expiry
import RespWire.Proofs.Keyspace.Duration
import RespWire.Proofs.Keyspace.Page
import RespWire.Proofs.Text.Order
import RespWire.Proofs.Report.Properties
import RespWire.Proofs.Report.Shuffled
import RespWire.Proofs.Report.LastWord
import RespWire.Proofs.Cluster.Span
import RespWire.Proofs.Keyspace.Filter
import RespWire.Proofs.Keyspace.SortEdits
import RespWire.Proofs.Number.Signed
import RespWire.Proofs.Command.Encoding
import RespWire.Proofs.SortedSet.IntervalEdits
import RespWire.Proofs.StringKinds
import RespWire.Proofs.Report.IntegerTexts
import RespWire.Proofs.Keyspace.SetArguments
import RespWire.Proofs.Failure
import RespWire.Proofs.Collection.OrderedSet
import RespWire.Proofs.SortedSet.EntrySet
import RespWire.Proofs.Command.Collections
import RespWire.Proofs.Resp.Grammar
import RespWire.Proofs.Cluster.Address
