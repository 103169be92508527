import Vitals.Access
import Vitals.Binary64.Basic
import Vitals.Binary64.Literal
import Vitals.Binary64.Shortest
import Vitals.Call
import Vitals.Cbor.Basic
import Vitals.Cbor.Form
import Vitals.Cbor.Skip
import Vitals.Collector.Config
import Vitals.Collector.Node
import Vitals.Collector.Run
import Vitals.Collector.Tick
import Vitals.Command.Basic
import Vitals.Command.Grammar
import Vitals.Directory
import Vitals.Duration.Basic
import Vitals.Duration.Text
import Vitals.Endpoint
import Vitals.Http.Client
import Vitals.Http.Exchange
import Vitals.Http.Message
import Vitals.Http.Node
import Vitals.Http.Status
import Vitals.Inquiry
import Vitals.Json.Basic
import Vitals.Json.Codec
import Vitals.Json.Fault
import Vitals.Json.Printer
import Vitals.Json.Reader
import Vitals.Json.Record
import Vitals.Json.Scalar
import Vitals.Json.Skip
import Vitals.Main
import Vitals.Net.Connection
import Vitals.Net.Ip
import Vitals.Net.Socket
import Vitals.OrderedMap
import Vitals.Program
import Vitals.Proofs.Binary64.Literal
import Vitals.Proofs.Binary64.Rounding
import Vitals.Proofs.Cbor.Form
import Vitals.Proofs.Cbor.Head
import Vitals.Proofs.Collector.Commands
import Vitals.Proofs.Collector.Course
import Vitals.Proofs.Collector.Effect
import Vitals.Proofs.Collector.Instant
import Vitals.Proofs.Collector.Ledger
import Vitals.Proofs.Collector.Loops
import Vitals.Proofs.Collector.Node
import Vitals.Proofs.Collector.Order
import Vitals.Proofs.Collector.Pace
import Vitals.Proofs.Collector.Passage
import Vitals.Proofs.Collector.Rescan
import Vitals.Proofs.Collector.Run
import Vitals.Proofs.Collector.Scrape
import Vitals.Proofs.Collector.Span
import Vitals.Proofs.Collector.Staleness
import Vitals.Proofs.Collector.Stop
import Vitals.Proofs.Collector.Tick
import Vitals.Proofs.Collector.Window
import Vitals.Proofs.Command.Grammar
import Vitals.Proofs.Command.Serve
import Vitals.Proofs.Directory
import Vitals.Proofs.Duration.Display
import Vitals.Proofs.Duration.Grammar
import Vitals.Proofs.Duration.Precision
import Vitals.Proofs.Endpoint
import Vitals.Proofs.Endpoint.Base
import Vitals.Proofs.Endpoint.Segments
import Vitals.Proofs.Json.Agreement
import Vitals.Proofs.Json.Codec
import Vitals.Proofs.Json.Member
import Vitals.Proofs.Json.Reader
import Vitals.Proofs.Json.Record
import Vitals.Proofs.Json.Scalar
import Vitals.Proofs.Json.Skip
import Vitals.Proofs.Json.Text
import Vitals.Proofs.OrderedMap
import Vitals.Proofs.Published
import Vitals.Proofs.Query
import Vitals.Proofs.Registry
import Vitals.Proofs.Registry.History
import Vitals.Proofs.Registry.Http
import Vitals.Proofs.Ring
import Vitals.Proofs.Ring.Representation
import Vitals.Proofs.Server
import Vitals.Proofs.Service
import Vitals.Proofs.Settings
import Vitals.Proofs.Url.Percent
import Vitals.Proofs.Utf8
import Vitals.Proofs.Wire.Agreement
import Vitals.Proofs.Wire.Cbor
import Vitals.Proofs.Wire.Counters
import Vitals.Proofs.Wire.Json
import Vitals.Published
import Vitals.Query
import Vitals.Registry.Basic
import Vitals.Registry.File
import Vitals.Registry.Http
import Vitals.Registry.Memory
import Vitals.Request
import Vitals.Ring
import Vitals.Server
import Vitals.Service
import Vitals.Settings.Basic
import Vitals.Settings.Layer
import Vitals.Settings.Value
import Vitals.Snapshot
import Vitals.Text.Blank
import Vitals.Text.Digits
import Vitals.Text.Quoted
import Vitals.Text.Shapeless
import Vitals.Text.Utf8
import Vitals.Toml.Basic
import Vitals.Toml.Document
import Vitals.Toml.Scalar
import Vitals.Toml.Text
import Vitals.Url.Basic
import Vitals.Url.Host
import Vitals.Url.Name
import Vitals.Url.Parser
import Vitals.Url.Percent
import Vitals.Url.Punycode
import Vitals.Warning
import Vitals.Wire.Cbor
import Vitals.Wire.Json
import Vitals.Wire.Kind
import Vitals.Proofs.Collector.Pair
import Vitals.Proofs.Collector.Mute
import Vitals.Proofs.Collector.Drop
