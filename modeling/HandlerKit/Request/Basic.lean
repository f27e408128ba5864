import HandlerKit.Tnetstring.Reader
import HandlerKit.Json.Reader
import HandlerKit.Value.Edit

/-!
# Requests

A request is one transport message laid out as

    <sender> <connection> <path> <headers><body?>

Three space-terminated tokens (no escaping, so none may be empty), then the headers as one
TNetstring value and, if bytes remain, the body as exactly one more.

The headers must be a dict. Under the `auto` header format a string holding a JSON object is
accepted as well; its text must be UTF-8 and is read under the same nesting limit.

**Disconnects.** A closed client is reported as a request whose `METHOD` header is `JSON` and
whose body is a JSON object with `"type": "disconnect"`.
-/

namespace HandlerKit

/-- How the headers of a request may be written. -/
inductive HeaderFormat where
  /-- A TNetstring dict. -/
  | tnetstring
  /-- A TNetstring dict, or a TNetstring string holding a JSON object. -/
  | auto
  deriving DecidableEq, Repr

/-- The name of a header format in configuration files. -/
def HeaderFormat.name : HeaderFormat → String
  | tnetstring => "tnetstring"
  | auto => "auto"

/-- How requests are read. -/
structure ParseOptions where
  headerFormat : HeaderFormat := .tnetstring
  maxDepth : Nat := Tnetstring.defaultDepth
  deriving DecidableEq, Repr

/-- One request. -/
structure Request where
  /-- The server that sent it. -/
  sender : Bytes
  /-- The client connection it came on. -/
  connection : Bytes
  /-- The path that matched the route. -/
  path : Bytes
  /-- Always a dict. -/
  headers : Value
  /-- The second value, if there is one. -/
  body : Option Value
  deriving Repr

namespace Request

/-- The byte of a blank. -/
def blank : UInt8 := 32

/-- Split the token before the first blank off `buf`. -/
def splitToken (field : Field) (buf : Bytes) : Except Error (Bytes × Bytes) :=
  let token := buf.takeWhile (· != blank)
  match buf.dropWhile (· != blank) with
  | [] => .error (.malformed (.noTerminatingSpace field))
  | _ :: rest =>
    if token = [] then .error (.malformed (.emptyToken field)) else .ok (token, rest)

/-- Headers written as a JSON object inside a string. -/
def jsonHeaders (text : Bytes) (limit : Nat) : Except Error Value :=
  match Utf8.decode? text with
  | none => .error (.malformed .headersNotText)
  | some _ =>
    match Json.parse limit text with
    | .error e => .error e
    | .ok (.dict es) => .ok (.dict es)
    | .ok other => .error (.typeMismatch "dict headers" other.tag)

/-- The headers of a request, from its first value: a dict as it stands or, under the `auto`
format, a string holding a JSON object. -/
def selectHeaders (opts : ParseOptions) (h : Value) : Except Error Value :=
  match h, opts.headerFormat with
  | .dict es, _ => pure (.dict es)
  | .str text, .auto => jsonHeaders text opts.maxDepth
  | other, _ => throw (.typeMismatch "dict headers" other.tag)

/-- The body of a request, from the bytes after its headers: none, or exactly one value. -/
def readBody (limit : Nat) (rest : Bytes) : Except Error (Option Value) :=
  match rest with
  | [] => pure none
  | _ => do
    let (b, trailing) ← Tnetstring.readPrefix limit rest
    if trailing ≠ [] then throw (.malformed (.trailingAfterBody trailing.length))
    pure (some b)

/-- Read a request message. -/
def parse (opts : ParseOptions) (raw : Bytes) : Except Error Request := do
  let (sender, r1) ← splitToken .sender raw
  let (connection, r2) ← splitToken .connection r1
  let (path, r3) ← splitToken .path r2
  let (h, r4) ← Tnetstring.readPrefix opts.maxDepth r3
  let headers ← selectHeaders opts h
  let body ← readBody opts.maxDepth r4
  return { sender, connection, path, headers, body }

/-- The header of a name. -/
def header (r : Request) (name : String) : Option Value :=
  r.headers.get? (Bytes.ofString name)

/-- The text of a header, when it is a string of UTF-8 bytes. -/
def headerText (r : Request) (name : String) : Option (List Char) :=
  r.headers.getText? (Bytes.ofString name)

/-- The raw bytes of a string-tagged body. -/
def bodyBytes (r : Request) : Option Bytes :=
  r.body.bind Value.asBytes

/-- The path as text, when it is UTF-8. -/
def pathText (r : Request) : Option (List Char) :=
  Utf8.decode? r.path

/-- Whether the request reports a closed client. -/
def isDisconnect (r : Request) : Bool :=
  if r.headerText "METHOD" = some "JSON".toList then
    match r.body.bind Value.asText with
    | none => false
    | some _ =>
      match r.body.bind Value.asBytes with
      | none => false
      | some text =>
        match Json.parse Json.defaultDepth text with
        | .ok msg => msg.getText? (Bytes.ofString "type") = some "disconnect".toList
        | .error _ => false
  else false

/-- The JSON document describing a request: its path, connection id, headers and, for a
string body, the body as text with ill-formed UTF-8 replaced. -/
def echoDocument (r : Request) : Value :=
  let base := [("path", Value.str r.path), ("conn_id", Value.str r.connection),
    ("headers", r.headers)]
  let withBody := match r.bodyBytes with
    | some b => base ++ [("body", Value.str (Utf8.encode (Utf8.decodeLossy b)))]
    | none => base
  .dict (Value.entriesOfPairs (withBody.map fun p => (Bytes.ofString p.1, p.2)))

/-- The compact JSON text of the echo document. -/
def echoBody (r : Request) : Except Error String :=
  Json.render r.echoDocument

end Request

end HandlerKit
