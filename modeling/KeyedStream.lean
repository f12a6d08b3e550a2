import KeyedStream.Assoc
import KeyedStream.Batch
import KeyedStream.Binary
import KeyedStream.Bytes
import KeyedStream.Bytes.Lemmas
import KeyedStream.Codec.Basic
import KeyedStream.Codec.Packed
import KeyedStream.Codec.ValueType
import KeyedStream.Config
import KeyedStream.Context
import KeyedStream.Dispatch
import KeyedStream.Error
import KeyedStream.Event
import KeyedStream.Frame
import KeyedStream.Frame.Buffer
import KeyedStream.Handler
import KeyedStream.InPlace
import KeyedStream.Instant
import KeyedStream.Instant.Calendar
import KeyedStream.Json.Reader
import KeyedStream.Json.Text
import KeyedStream.Json.Value
import KeyedStream.MsgPack.Fields
import KeyedStream.MsgPack.Form
import KeyedStream.MsgPack.Head
import KeyedStream.MsgPack.Skip
import KeyedStream.Operator
import KeyedStream.Ordered
import KeyedStream.Pipe
import KeyedStream.Proofs.Chunks
import KeyedStream.Proofs.Coalesce
import KeyedStream.Proofs.Delivery
import KeyedStream.Proofs.Dispatch
import KeyedStream.Proofs.Frame
import KeyedStream.Proofs.History
import KeyedStream.Proofs.Layout
import KeyedStream.Proofs.Lossless
import KeyedStream.Proofs.MapState
import KeyedStream.Proofs.Messages
import KeyedStream.Proofs.Mirror
import KeyedStream.Proofs.Pairing
import KeyedStream.Proofs.Pipe
import KeyedStream.Proofs.Places
import KeyedStream.Proofs.Programs
import KeyedStream.Proofs.Render
import KeyedStream.Proofs.Restored
import KeyedStream.Proofs.RowOrder
import KeyedStream.Proofs.Scalar
import KeyedStream.Proofs.Service
import KeyedStream.Proofs.Split
import KeyedStream.Proofs.Store
import KeyedStream.Proofs.Stream
import KeyedStream.Proofs.TableMirror
import KeyedStream.Proofs.Timestamp
import KeyedStream.Proofs.ValueMirror
import KeyedStream.Proto.Fault
import KeyedStream.Proto.Key
import KeyedStream.Proto.Layout
import KeyedStream.Proto.Varint
import KeyedStream.Proto.Varint.Lemmas
import KeyedStream.Rpc.Address
import KeyedStream.Rpc.ErrorBody
import KeyedStream.Rpc.Header
import KeyedStream.Rpc.Router
import KeyedStream.Scalar.Basic
import KeyedStream.Scalar.Value
import KeyedStream.Scalar.Wrapper
import KeyedStream.Script.Handler
import KeyedStream.Script.Item
import KeyedStream.Script.Step
import KeyedStream.State.Basic
import KeyedStream.State.Map
import KeyedStream.State.Spec
import KeyedStream.State.Value
import KeyedStream.Stream
import KeyedStream.Subject
import KeyedStream.TestRun
import KeyedStream.Text.Digits
import KeyedStream.Text.Printable
import KeyedStream.Text.Quoted
import KeyedStream.Text.Shortest
import KeyedStream.Text.Span
import KeyedStream.Text.Utf8
import KeyedStream.Wire.Batch
import KeyedStream.Wire.Command
import KeyedStream.Wire.Event
import KeyedStream.Wire.Rows
import KeyedStream.Wire.Timestamp
import KeyedStream.Proofs.Companion
import KeyedStream.Proofs.TableHistory
import KeyedStream.Proofs.Recorded
import KeyedStream.Proofs.FirstFailure
import KeyedStream.Proofs.Transports
import KeyedStream.Proofs.TableReload
import KeyedStream.Proofs.ValueReload
import KeyedStream.Proofs.Answer
import KeyedStream.Proofs.Headers
import KeyedStream.Proofs.Instants
import KeyedStream.Proofs.Checks
import KeyedStream.Proofs.InPlace
import KeyedStream.Proofs.Exchange
import KeyedStream.Proofs.Queue
import KeyedStream.Proofs.Rejected
import KeyedStream.Proofs.RoundTrip
import KeyedStream.Proofs.Width
import KeyedStream.Proofs.Flight
import KeyedStream.Proofs.Deadline
import KeyedStream.Proofs.ErrorBodies
import KeyedStream.Proofs.Spellings
import KeyedStream.Proofs.WellFormed
import KeyedStream.Proofs.Forms
import KeyedStream.Proofs.Records
import KeyedStream.Proofs.Packed
