import HandlerKit.Config.Schema
import HandlerKit.Yaml.Decode
import HandlerKit.Host.Files

/-!
# Reading a configuration from YAML

The document must be a mapping with exactly the known fields (`version`, `handler`, `log`), each
at most once; the sections likewise. Text fields take any scalar as text (`1` is the text
`"1"`); the identity may be null; integer fields take plain unsigned integers; the header format
is `tnetstring` or `auto`. A configuration that decodes is then validated.

Failures are `bad config` errors: `invalid yaml: …` with the decoding message, or the first
failed check.
-/

namespace HandlerKit.Config

open Yaml

/-- The fields of the log section. -/
def logFields : List String := ["filter"]

/-- The fields of the handler section. -/
def handlerFields : List String :=
  ["sender_id", "recv_addr", "send_addr", "header_format", "max_message_bytes", "max_depth"]

/-- The fields of a configuration. -/
def configFields : List String := ["version", "handler", "log"]

/-- The header formats, by their index. -/
def headerFormats : List HeaderFormat := [.tnetstring, .auto]

/-- A field seen twice. -/
def once {α : Type} (seen : Option α) (name : String) : Decoded Unit :=
  if seen.isSome then .error (duplicateField name) else .ok ()

/-- The log section. -/
def decodeLog (d : Document) (path : Path) (i : Nat) : Decoded (LogSection × Nat) :=
  d.mapping path i "struct LogSection" logFields (none : Option String)
    (fun seen _ vp j => do
      once seen "filter"
      let (s, j) ← d.text vp j "a string" .ok
      return (some s, j))
    (fun seen => .ok { filter := seen.getD "info" })

/-- The handler fields seen so far. -/
structure HandlerFields where
  senderId : Option (Option String) := none
  recvAddr : Option String := none
  sendAddr : Option String := none
  headerFormat : Option HeaderFormat := none
  maxMessageBytes : Option Nat := none
  maxDepth : Option Nat := none

/-- The handler section. -/
def decodeHandler (d : Document) (path : Path) (i : Nat) : Decoded (HandlerSection × Nat) :=
  d.mapping path i "struct HandlerSection" handlerFields ({} : HandlerFields)
    (fun st k vp j =>
      match k with
      | 0 => do
        once st.senderId "sender_id"
        let (v, j) ← d.optionalText vp j
        return ({ st with senderId := some v }, j)
      | 1 => do
        once st.recvAddr "recv_addr"
        let (v, j) ← d.text vp j "a string" .ok
        return ({ st with recvAddr := some v }, j)
      | 2 => do
        once st.sendAddr "send_addr"
        let (v, j) ← d.text vp j "a string" .ok
        return ({ st with sendAddr := some v }, j)
      | 3 => do
        once st.headerFormat "header_format"
        let (v, j) ← d.variant vp j (headerFormats.map HeaderFormat.name)
        return ({ st with headerFormat := headerFormats[v]? }, j)
      | 4 => do
        once st.maxMessageBytes "max_message_bytes"
        let (v, j) ← d.unsigned vp j "usize" .ok
        return ({ st with maxMessageBytes := some v }, j)
      | _ => do
        once st.maxDepth "max_depth"
        let (v, j) ← d.unsigned vp j "usize" .ok
        return ({ st with maxDepth := some v }, j))
    (fun st => do
      let some recvAddr := st.recvAddr | throw (missingField "recv_addr")
      let some sendAddr := st.sendAddr | throw (missingField "send_addr")
      return {
        senderId := st.senderId.getD none
        recvAddr
        sendAddr
        headerFormat := st.headerFormat.getD .tnetstring
        maxMessageBytes := st.maxMessageBytes.getD defaultMaxMessageBytes
        maxDepth := st.maxDepth.getD Tnetstring.defaultDepth })

/-- The configuration fields seen so far. -/
structure ConfigFields where
  version : Option Nat := none
  handler : Option HandlerSection := none
  log : Option LogSection := none

/-- A 32-bit unsigned integer. -/
def u32 (n : Nat) : Decoded Nat :=
  if n < Nat.pow 2 32 then .ok n else .error (invalidValue (.unsigned n) "u32")

/-- A whole configuration. -/
def decodeConfig (d : Document) : Decoded (HandlerConfig × Nat) :=
  d.mapping .root 0 "struct HandlerConfig" configFields ({} : ConfigFields)
    (fun st k vp j =>
      match k with
      | 0 => do
        once st.version "version"
        let (v, j) ← d.unsigned vp j "u32" u32
        return ({ st with version := some v }, j)
      | 1 => do
        once st.handler "handler"
        let (v, j) ← decodeHandler d vp j
        return ({ st with handler := some v }, j)
      | _ => do
        once st.log "log"
        let (v, j) ← decodeLog d vp j
        return ({ st with log := some v }, j))
    (fun st => do
      let some version := st.version | throw (missingField "version")
      let some handler := st.handler | throw (missingField "handler")
      return { version, handler, log := st.log.getD {} })

/-- Read and check a configuration from YAML text. -/
def loadText (text : String) : Except Error HandlerConfig :=
  match decodeText text decodeConfig with
  | .error e => .error (.badConfig ("invalid yaml: " ++ e.text))
  | .ok c => do
    c.validate
    return c

/-- Check a configuration read from the file at a path, or say why reading it failed. -/
def ofRead (path : String) (r : Except ReadFailure String) : Except Error HandlerConfig :=
  match r with
  | .error e => .error (.badConfig ("read " ++ path ++ " failed: " ++ e.text))
  | .ok text => loadText text

/-- Read and check a configuration from a file. -/
def loadFile (fs : Files) (path : String) : Except Error HandlerConfig :=
  ofRead path (fs.read path)

end HandlerKit.Config
