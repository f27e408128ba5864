import HandlerKit.Value.Tag
import HandlerKit.Number.Binary64
import HandlerKit.Value.Basic
import HandlerKit.Json.Fault
import HandlerKit.Number.IntText
import HandlerKit.Number.FloatText
import HandlerKit.Text.Hidden
import HandlerKit.Text.Extending
import HandlerKit.Text.Escaped
import HandlerKit.Error
import HandlerKit.Transport.Basic
import HandlerKit.Tnetstring.Frame
import HandlerKit.Text.Utf8
import HandlerKit.Tnetstring.Reader
import HandlerKit.Number.Shortest
import HandlerKit.Json.Writer
import HandlerKit.Json.Reader
import HandlerKit.Json.Tree
import HandlerKit.Value.Edit
import HandlerKit.Request.Basic
import HandlerKit.Request.Reply
import HandlerKit.Config.Schema
import HandlerKit.Connection
import HandlerKit.Bench.Basic
import HandlerKit.Transport.Local
import HandlerKit.Yaml.Token
import HandlerKit.Yaml.Scanner
import HandlerKit.Yaml.Parser
import HandlerKit.Yaml.Document
import HandlerKit.Yaml.Scalar
import HandlerKit.Yaml.Decode
import HandlerKit.Host.Files
import HandlerKit.Config.Load
import HandlerKit.Bench.Local
import HandlerKit.Transport.Socket
import HandlerKit.Bench.Socket
import HandlerKit.Echo
import HandlerKit.Echo.Program
import HandlerKit.Main
import HandlerKit.Transport.Scripted
import HandlerKit.Proofs.Except
import HandlerKit.Proofs.Utf8
import HandlerKit.Proofs.Tokens
import HandlerKit.Proofs.Reply
import HandlerKit.Proofs.Tnetstring.Payload
import HandlerKit.Proofs.Tnetstring.Grammar
import HandlerKit.Proofs.Request
import HandlerKit.Proofs.Binary64
import HandlerKit.Proofs.Json.Representable
import HandlerKit.Proofs.Json.Reading
import HandlerKit.Proofs.Json.Numbers
import HandlerKit.Proofs.Json.Strings
import HandlerKit.Proofs.Json.Writing
import HandlerKit.Proofs.Json.RoundTrip
import HandlerKit.Proofs.Json.Sound
import HandlerKit.Proofs.Json.Bridge
import HandlerKit.Proofs.Depth
import HandlerKit.Proofs.Tnetstring.Nesting
import HandlerKit.Proofs.Json.Nesting
import HandlerKit.Proofs.Local.Steps
import HandlerKit.Proofs.Local.Requests
import HandlerKit.Proofs.Local.Replies
import HandlerKit.Proofs.Replying
import HandlerKit.Proofs.Json.Faults
import HandlerKit.Proofs.Json.Document
import HandlerKit.Proofs.ReadFailures
import HandlerKit.Proofs.Echo
import HandlerKit.Proofs.Tnetstring.Bounds
import HandlerKit.Proofs.Dicts
import HandlerKit.Proofs.Rounding
import HandlerKit.Proofs.FloatText
import HandlerKit.Proofs.Json.Integers
