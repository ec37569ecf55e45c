import ChainClient.Account
import ChainClient.Address.Base58
import ChainClient.Address.Ss58
import ChainClient.Assoc
import ChainClient.Binary64
import ChainClient.Binary64.Shortest
import ChainClient.BlockHash
import ChainClient.Bytes
import ChainClient.Cache.Directory
import ChainClient.Cache.FileTree
import ChainClient.Cache.Metadata
import ChainClient.Cache.Store
import ChainClient.Client
import ChainClient.Codec.Compact
import ChainClient.Codec.Decode
import ChainClient.Codec.Encode
import ChainClient.Codec.Error
import ChainClient.Config.Arguments
import ChainClient.Config.Basic
import ChainClient.Config.EnvFile
import ChainClient.Config.Environment
import ChainClient.Config.File
import ChainClient.Config.Variables
import ChainClient.Context.Basic
import ChainClient.Context.Booking
import ChainClient.Context.Connect
import ChainClient.Context.Storage
import ChainClient.Context.Submit
import ChainClient.Extrinsic.Basic
import ChainClient.Extrinsic.Error
import ChainClient.Extrinsic.Extension
import ChainClient.Hash.Blake2b
import ChainClient.Hash.Hasher
import ChainClient.Hash.Sha512
import ChainClient.Hash.Word64
import ChainClient.Hash.XxHash64
import ChainClient.Hex
import ChainClient.Inspection
import ChainClient.Json.Basic
import ChainClient.Json.Indented
import ChainClient.Json.Lexer
import ChainClient.Json.Number
import ChainClient.Json.Parser
import ChainClient.Json.Printer
import ChainClient.Json.Written
import ChainClient.Loopback.Basic
import ChainClient.Loopback.Desk
import ChainClient.Loopback.Script
import ChainClient.Main
import ChainClient.Metadata.Basic
import ChainClient.Metadata.Blob
import ChainClient.Metadata.Convert
import ChainClient.Metadata.Json
import ChainClient.Metadata.Portable
import ChainClient.Metadata.Scale
import ChainClient.Power
import ChainClient.Program
import ChainClient.Proofs.Cache.Metadata
import ChainClient.Proofs.Cache.Store
import ChainClient.Proofs.Client.Provenance
import ChainClient.Proofs.Client.Step
import ChainClient.Proofs.Client.Turn
import ChainClient.Proofs.Codec.Compact
import ChainClient.Proofs.Codec.Depth
import ChainClient.Proofs.Codec.Descriptor
import ChainClient.Proofs.Codec.Fields
import ChainClient.Proofs.Codec.Parts
import ChainClient.Proofs.Codec.Reading
import ChainClient.Proofs.Codec.Recompaction
import ChainClient.Proofs.Codec.Remainder
import ChainClient.Proofs.Codec.RoundTrip
import ChainClient.Proofs.Codec.Scalar
import ChainClient.Proofs.Codec.Sequence
import ChainClient.Proofs.Codec.Unambiguous
import ChainClient.Proofs.Context.Submission
import ChainClient.Proofs.Metadata.Agreement
import ChainClient.Proofs.Metadata.Conversion
import ChainClient.Proofs.Metadata.Unfolding
import ChainClient.Proofs.Metadata.Wire
import ChainClient.Proofs.Outcome
import ChainClient.Proofs.Program.Asks
import ChainClient.Proofs.Session.Arrival
import ChainClient.Proofs.Session.Keeps
import ChainClient.Proofs.Session.Pending
import ChainClient.Proofs.Text.Hex
import ChainClient.Proofs.Text.Utf8
import ChainClient.Registry
import ChainClient.Ristretto.Field
import ChainClient.Ristretto.Point
import ChainClient.Rpc.Message
import ChainClient.Rpc.Method
import ChainClient.Rpc.Record
import ChainClient.Rpc.Request
import ChainClient.Rpc.RuntimeVersion
import ChainClient.Rpc.SystemInfo
import ChainClient.Rpc.TransactionStatus
import ChainClient.Session.Basic
import ChainClient.Session.Error
import ChainClient.Session.Link
import ChainClient.Session.Receive
import ChainClient.Storage.Key
import ChainClient.Storage.KeyInput
import ChainClient.Text.Alphanumeric
import ChainClient.Text.Blank
import ChainClient.Text.CharLiteral
import ChainClient.Text.Numeral
import ChainClient.Url
import ChainClient.Url.Address
import ChainClient.Url.Error
import ChainClient.Url.Name
import ChainClient.Value.Basic
import ChainClient.Value.Text
import ChainClient.Proofs.Extrinsic.Call
import ChainClient.Proofs.Extrinsic.Extensions
import ChainClient.Proofs.Client.Calls
import ChainClient.Proofs.Client.Delivery
import ChainClient.Proofs.Client.Unusable
import ChainClient.Proofs.Context.Capability
import ChainClient.Proofs.Extrinsic.Signing
import ChainClient.Proofs.Client.Notifications
import ChainClient.Proofs.Codec.Locality
import ChainClient.Proofs.Storage.Key
import ChainClient.Proofs.Program.Questions
import ChainClient.Proofs.Client.Answers
import ChainClient.Proofs.Client.Conversation
import ChainClient.Proofs.Context.Query
import ChainClient.Proofs.Context.Sending
import ChainClient.Proofs.Cache.Keys
import ChainClient.Proofs.Text.Numeral
import ChainClient.Proofs.Cache.Newest
import ChainClient.Proofs.Client.Refreshing
import ChainClient.Proofs.Json.Numbers
import ChainClient.Proofs.Json.Strings
import ChainClient.Proofs.Json.Tokens
import ChainClient.Proofs.Json.RoundTrip
import ChainClient.Proofs.Value.Parts
import ChainClient.Proofs.Value.Printed
import ChainClient.Proofs.Address.Base58
import ChainClient.Proofs.Codec.Reentry
import ChainClient.Proofs.Address.Ss58
import ChainClient.Proofs.Text.Blank
import ChainClient.Proofs.Storage.KeyInput
import ChainClient.Proofs.Extrinsic.Contributions
import ChainClient.Proofs.Extrinsic.Arguments
import ChainClient.Proofs.Codec.Options
import ChainClient.Proofs.Metadata.Discriminants
import ChainClient.Proofs.Codec.Integers
import ChainClient.Proofs.Codec.Forms
import ChainClient.Proofs.Storage.KeyScalars
import ChainClient.Proofs.Client.Subscribing
import ChainClient.Proofs.Codec.CompactRange
import ChainClient.Proofs.Config.Rules
import ChainClient.Proofs.Cache.Mirror
import ChainClient.Proofs.Client.Facts
import ChainClient.Proofs.Text.Boundary
import ChainClient.Proofs.Codec.InPlace
import ChainClient.Proofs.Metadata.Wrappers
