import HandlerKit.Request.Basic

/-!
# Handler configuration

A configuration names the two server endpoints of a handler, how its requests are read and how
it logs. Optional fields have defaults: no identity, TNetstring headers, a 256 KiB message cap,
nesting depth 64, log filter `info`.

A configuration is accepted when its version is 1, the two addresses are non-empty and
different, the identity (if given) is non-empty without blanks, the message cap lies in
1 KiB … 64 MiB, and the depth in 1 … 128 (the JSON reader cannot nest deeper). The checks run
in that order and the first that fails is reported.
-/

namespace HandlerKit

/-- The default cap on the size of one incoming message. -/
def defaultMaxMessageBytes : Nat := 256 * 1024

/-- The deepest nesting the JSON reader allows. -/
def jsonMaxDepth : Nat := 128

/-- The handler's endpoints and request options. -/
structure HandlerSection where
  /-- The identity set on the inbound endpoint. -/
  senderId : Option String := none
  /-- The address requests are pulled from. -/
  recvAddr : String
  /-- The address replies are published to. -/
  sendAddr : String
  headerFormat : HeaderFormat := .tnetstring
  maxMessageBytes : Nat := defaultMaxMessageBytes
  maxDepth : Nat := Tnetstring.defaultDepth
  deriving DecidableEq, Repr

/-- How the handler logs. -/
structure LogSection where
  filter : String := "info"
  deriving DecidableEq, Repr

/-- A whole configuration file. -/
structure HandlerConfig where
  version : Nat
  handler : HandlerSection
  log : LogSection := {}
  deriving DecidableEq, Repr

namespace HandlerSection

/-- The checks on the handler section, in order. -/
def validate (h : HandlerSection) : Except Error Unit := do
  if h.recvAddr.isEmpty || h.sendAddr.isEmpty then
    throw (.badConfig "handler.recv_addr and handler.send_addr must not be empty")
  if h.recvAddr == h.sendAddr then
    throw (.badConfig "handler.recv_addr and handler.send_addr must differ")
  if let some id := h.senderId then
    if id.isEmpty || id.toList.contains ' ' then
      throw (.badConfig "handler.sender_id must be non-empty and contain no spaces")
  if !(1024 ≤ h.maxMessageBytes && h.maxMessageBytes ≤ 64 * 1024 * 1024) then
    throw (.badConfig "handler.max_message_bytes must be between 1024 and 67108864")
  if !(1 ≤ h.maxDepth && h.maxDepth ≤ jsonMaxDepth) then
    throw (.badConfig ("handler.max_depth must be between 1 and " ++ toString jsonMaxDepth))

/-- How requests are read under this section. -/
def parseOptions (h : HandlerSection) : ParseOptions :=
  { headerFormat := h.headerFormat, maxDepth := h.maxDepth }

end HandlerSection

/-- The checks on a configuration: the version first, then the handler section. -/
def HandlerConfig.validate (c : HandlerConfig) : Except Error Unit := do
  if c.version != 1 then throw (.badConfig ("unsupported config version " ++ toString c.version))
  c.handler.validate

end HandlerKit
