import PluginBridge.Binary64
import PluginBridge.Binary64.Narrow
import PluginBridge.Bridge.Endpoint
import PluginBridge.Bridge.Error
import PluginBridge.Bridge.Message
import PluginBridge.Builder
import PluginBridge.Builder.HostServices
import PluginBridge.Builder.Remote
import PluginBridge.Builder.Serving
import PluginBridge.Builder.Transcript
import PluginBridge.Bytes
import PluginBridge.Bytes.Hex
import PluginBridge.CallbackServer
import PluginBridge.CallbackServer.Sessions
import PluginBridge.CancelTrigger
import PluginBridge.Capability
import PluginBridge.Cbor
import PluginBridge.Cbor.Value
import PluginBridge.Cbor.Wire
import PluginBridge.Codec
import PluginBridge.Codec.Error
import PluginBridge.Codec.TypeRegistry
import PluginBridge.CommandLine.Command
import PluginBridge.CommandLine.Commands
import PluginBridge.CommandLine.Console
import PluginBridge.CommandLine.Example
import PluginBridge.CommandLine.Options
import PluginBridge.CommandLine.Program
import PluginBridge.CommandLine.Report
import PluginBridge.CommandLine.Request
import PluginBridge.CommandLine.Surroundings
import PluginBridge.Compact
import PluginBridge.Compact.Spec
import PluginBridge.Compact.Value
import PluginBridge.Config
import PluginBridge.Config.Document
import PluginBridge.Config.Validation
import PluginBridge.Datasource
import PluginBridge.Datasource.Executions
import PluginBridge.Datasource.Operation
import PluginBridge.Datasource.Remote
import PluginBridge.Datasource.Serving
import PluginBridge.Decimal.Json
import PluginBridge.Decimal.Shortest
import PluginBridge.Document
import PluginBridge.Document.Json
import PluginBridge.Document.Toml
import PluginBridge.Envelope
import PluginBridge.Fields
import PluginBridge.Implementation
import PluginBridge.Interpolation
import PluginBridge.Interpolation.Split
import PluginBridge.Json
import PluginBridge.Json.Printer
import PluginBridge.Main
import PluginBridge.Manifest
import PluginBridge.Overrides
import PluginBridge.Overrides.Precedence
import PluginBridge.PluginServer
import PluginBridge.Proofs.Acceptance
import PluginBridge.Proofs.BuilderBridge
import PluginBridge.Proofs.CallbackSessions
import PluginBridge.Proofs.CallbackStarts
import PluginBridge.Proofs.CancelTrigger
import PluginBridge.Proofs.Cbor
import PluginBridge.Proofs.CborMessageSteady
import PluginBridge.Proofs.CborSteady
import PluginBridge.Proofs.CborValue
import PluginBridge.Proofs.CborWire
import PluginBridge.Proofs.Client
import PluginBridge.Proofs.Codec
import PluginBridge.Proofs.Compact
import PluginBridge.Proofs.CompactSpec
import PluginBridge.Proofs.CompactSteady
import PluginBridge.Proofs.CompactValue
import PluginBridge.Proofs.Configuring
import PluginBridge.Proofs.Conformance
import PluginBridge.Proofs.Connection
import PluginBridge.Proofs.DatasourceBridge
import PluginBridge.Proofs.Deployment
import PluginBridge.Proofs.Exchange
import PluginBridge.Proofs.Executions
import PluginBridge.Proofs.Fields
import PluginBridge.Proofs.FrameStream
import PluginBridge.Proofs.Interpolation
import PluginBridge.Proofs.JsonForm
import PluginBridge.Proofs.LinkTraffic
import PluginBridge.Proofs.Messages
import PluginBridge.Proofs.ModeSeparation
import PluginBridge.Proofs.Narration
import PluginBridge.Proofs.Numbering
import PluginBridge.Proofs.Overrides
import PluginBridge.Proofs.Reading
import PluginBridge.Proofs.Registration
import PluginBridge.Proofs.ResultTag
import PluginBridge.Proofs.RoundTrip
import PluginBridge.Proofs.Routing
import PluginBridge.Proofs.Sequences
import PluginBridge.Proofs.Steady
import PluginBridge.Proofs.Traffic
import PluginBridge.Proofs.TrafficIsolation
import PluginBridge.Proofs.TrafficResults
import PluginBridge.Proofs.TrafficSound
import PluginBridge.Proofs.Truncation
import PluginBridge.Proofs.TypeCompletion
import PluginBridge.Proofs.TypeCursor
import PluginBridge.Proofs.TypeExpression
import PluginBridge.Proofs.TypeFaults
import PluginBridge.Proofs.TypeGrammar
import PluginBridge.Proofs.TypeOrder
import PluginBridge.Proofs.TypeParsing
import PluginBridge.Proofs.TypeTokens
import PluginBridge.Proofs.Utf8
import PluginBridge.Proofs.Validation
import PluginBridge.Proofs.Violations
import PluginBridge.Proofs.Wire
import PluginBridge.Proofs.WireMessage
import PluginBridge.Reader
import PluginBridge.Rehearsal.RecordingHost
import PluginBridge.Rehearsal.Script
import PluginBridge.Rehearsal.ScriptedBuilder
import PluginBridge.Rehearsal.ScriptedDatasource
import PluginBridge.Sample.Acceptance
import PluginBridge.Sample.EchoBuilder
import PluginBridge.Sample.Narration
import PluginBridge.Sample.StaticDatasource
import PluginBridge.SocketAddress
import PluginBridge.Spec
import PluginBridge.Spec.Exact
import PluginBridge.Spec.Tagged
import PluginBridge.Spec.Validation
import PluginBridge.Spec.Violations
import PluginBridge.Text.Blank
import PluginBridge.Text.Digit
import PluginBridge.Text.Utf8
import PluginBridge.Toml.Scalar
import PluginBridge.Toml.Table
import PluginBridge.Toml.Text
import PluginBridge.Transport.Client
import PluginBridge.Transport.Connection
import PluginBridge.Transport.Error
import PluginBridge.Transport.Frame
import PluginBridge.Transport.Registry
import PluginBridge.Transport.Service
import PluginBridge.Transport.Traffic
import PluginBridge.Transport.Visits
import PluginBridge.Ty
import PluginBridge.Ty.Cursor
import PluginBridge.Ty.Generality
import PluginBridge.Ty.Grammar
import PluginBridge.Ty.Parser
import PluginBridge.Ty.Printer
import PluginBridge.Value
import PluginBridge.Value.Exact
import PluginBridge.Value.Json
import PluginBridge.Value.Tagged
import PluginBridge.Value.Typing
import PluginBridge.Version
import PluginBridge.Version.Requirement
import PluginBridge.Wire
import PluginBridge.Wire.Exact
