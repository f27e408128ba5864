import HandlerKit.Transport.Basic

/-!
# A model of message-queue sockets in one context

Endpoints are sockets of a messaging library, all in one *context*. A pull endpoint is a PULL
socket connected to an address, a publish endpoint a PUB socket. The context may hold sockets
bound by the server: a PUSH socket at the request address, whose messages reach the PULL
socket connected there, and a SUB socket at the reply address, which collects what PUB sockets
connected there send. A PUB socket connected anywhere else reaches no one.

**Addresses.** `protocol://rest`, both parts non-empty (else `Invalid argument`). The
protocols are `inproc`, `ipc`, `tcp`, `ws` and `udp`; others are `Protocol not supported`, and
`udp` does not go with these socket types. A `tcp` address is a host made of letters, digits and
`.-:%;[]_*` followed by `:port` with a digit after the last colon; it is looked up only later.
A `ws` address is looked up at once: `host:port` with an optional `/path`, where the port reads
as a number that is not 0 in 16 bits (or is `0` itself), and the host, perhaps in brackets and
with a `%zone`, is a numeric IPv4 address, an IPv6 address that maps one, or `localhost` (IPv6
is off, so other IPv6 addresses do not resolve). An `ipc` path must be
shorter than 108 bytes and not `@` alone. An identity is 1 to 255 bytes. Every failure of an
address is `Invalid argument` unless said otherwise.

**Aborting.** The library takes addresses as NUL-terminated strings, so an address with a NUL
byte in it cannot be handed over at all: the program panics. The context records the panic, and
whoever runs the program stops there.

**Termination.** Once the context is terminated no socket can be made, and a receive with
nothing queued fails with `terminated`. Closing a PULL socket throws away what was queued for it.
-/

namespace HandlerKit

/-- A PULL socket and the messages queued for it. -/
structure PullSocket where
  addr : String
  identity : Option Bytes
  inbox : List Bytes := []
  live : Bool := true

/-- The sockets of one context. -/
structure Sockets where
  pulls : List PullSocket := []
  /-- The address each PUB socket is connected to. -/
  pubs : List String := []
  /-- Where the server's PUSH socket is bound, if it is. -/
  requestAddr : Option String := none
  /-- Where the server's SUB socket is bound, if it is. -/
  replyAddr : Option String := none
  /-- What reached the server's SUB socket, oldest first. -/
  replies : List Bytes := []
  terminated : Bool := false
  /-- The panic the program stopped with, if it did. -/
  aborted : Option String := none

namespace Sockets

/-- The operating system's words for the failures of connecting. -/
def invalidArgument : String := "Invalid argument"
/-- The operating system's words for the failures of connecting. -/
def protocolNotSupported : String := "Protocol not supported"
/-- The operating system's words for the failures of connecting. -/
def incompatibleProtocol : String := "The protocol is not compatible with the socket type"
/-- The operating system's words for the failures of connecting. -/
def nameTooLong : String := "File name too long"

/-- Characters a `tcp` host may be written with. -/
def isHostChar (c : Char) : Bool := c.isAlphanum || ".-:%;[]_*".toList.contains c

/-- Whether a `tcp` address is a plausible `host:port`. -/
def tcpAddressOk (a : String) : Bool :=
  match a.toList with
  | [] => false
  | c :: rest =>
    let shape :=
      if c.isAlphanum || c == '[' || c == ':' then rest.all isHostChar else false
    shape &&
      match (a.splitOn ":").getLast? with
      | some port => a.toList.contains ':' && (port.toList.head?.map Char.isDigit).getD false
      | none => false

/-- The text before and after the last `c` in `s`, if `c` occurs in it. -/
def splitLast (s : String) (c : Char) : Option (String × String) :=
  let parts := s.splitOn (String.singleton c)
  match parts.getLast? with
  | some after =>
    if parts.length ≥ 2 then some ((String.singleton c).intercalate parts.dropLast, after)
    else none
  | none => none

/-- Whether a character is a blank to the C library. -/
def isCSpace (c : Char) : Bool :=
  c == ' ' || c == '\t' || c == '\n' || c == '\x0b' || c == '\x0c' || c == '\r'

/-- The value of the leading decimal digits. -/
def leadingDecimal (cs : List Char) : Nat :=
  (cs.takeWhile Char.isDigit).foldl (fun n c => 10 * n + (c.toNat - 48)) 0

/-- A number as the C library reads one from text: blanks, a sign and decimal digits, held to the
range of a 64-bit signed integer; text with no digits reads as 0. -/
def cNumber (s : String) : Int :=
  let cs := s.toList.dropWhile isCSpace
  match cs with
  | '-' :: ds => max (-(leadingDecimal ds : Int)) (-(Nat.pow 2 63 : Int))
  | '+' :: ds => min (leadingDecimal ds : Int) (Nat.pow 2 63 - 1 : Nat)
  | ds => min (leadingDecimal ds : Int) (Nat.pow 2 63 - 1 : Nat)

/-- Whether a port is usable: `0` itself, or text whose number is not 0 in its low 16 bits. -/
def portOk (p : String) : Bool := p == "0" || cNumber p % 65536 != 0

/-- The value of a digit in a base of 8, 10 or 16. -/
def digitIn (base : Nat) (c : Char) : Option Nat :=
  if c.isDigit && c.toNat - 48 < base then some (c.toNat - 48)
  else if base == 16 && 'a' ≤ c && c ≤ 'f' then some (c.toNat - 87)
  else if base == 16 && 'A' ≤ c && c ≤ 'F' then some (c.toNat - 55)
  else none

/-- Read digits of a base onto a value; the value and what follows the digits. -/
def readRun (base : Nat) : List Char → Nat → Nat × List Char
  | [], v => (v, [])
  | c :: rest, v =>
    match digitIn base c with
    | some d => readRun base rest (v * base + d)
    | none => (v, c :: rest)

/-- One part of a numeric IPv4 address, read as a C number: `0x` and hexadecimal digits, a
leading `0` for octal, else decimal. The part must start with a digit. -/
def readPart (cs : List Char) : Option (Nat × List Char) :=
  match cs with
  | '0' :: x :: h :: rest =>
    if (x == 'x' || x == 'X') && (digitIn 16 h).isSome then some (readRun 16 (h :: rest) 0)
    else some (readRun 8 (x :: h :: rest) 0)
  | '0' :: rest => some (readRun 8 rest 0)
  | c :: _ => if c.isDigit then some (readRun 10 cs 0) else none
  | [] => none

/-- Whether text is a numeric IPv4 address: one to four parts between dots, every part but the
last at most 255, and the last filling the bytes that are left. -/
def ipv4Ok (s : String) : Bool :=
  let parts := s.splitOn "."
  let values := parts.mapM fun p =>
    match readPart p.toList with
    | some (v, []) => some v
    | _ => none
  match values with
  | some vs =>
    parts.length ≤ 4 && vs.dropLast.all (· ≤ 255) &&
      match vs.getLast? with
      | some v => v < Nat.pow 2 (8 * (5 - parts.length))
      | none => false
  | none => false

/-- Whether text is a dotted quad: four decimal parts at most 255, none with a leading zero. -/
def dottedQuad (cs : List Char) : Option (List Nat) :=
  let parts := (String.ofList cs).splitOn "."
  if parts.length != 4 then none
  else parts.mapM fun p =>
    let ds := p.toList
    if ds.isEmpty || !ds.all Char.isDigit || (ds.length > 1 && ds.head? == some '0') then none
    else
      let v := leadingDecimal ds
      if v ≤ 255 then some v else none

/-- Where an IPv6 address is in its reading: the bytes written, where `::` stood, and the hex
digits of the group being read with their count. -/
structure V6Reading where
  bytes : List Nat := []
  gap : Option Nat := none
  count : Nat := 0
  value : Nat := 0

/-- Read the groups of an IPv6 address; `group` is the text from the start of the current group,
where a dotted quad may stand last. The bytes written and where `::` stood. -/
def readV6 : List Char → List Char → V6Reading → Option (List Nat × Option Nat)
  | [], _, r =>
    if r.count == 0 then some (r.bytes, r.gap)
    else if r.bytes.length + 2 > 16 then none
    else some (r.bytes ++ [r.value / 256, r.value % 256], r.gap)
  | c :: rest, group, r =>
    match digitIn 16 c with
    | some d =>
      if r.count == 4 then none
      else readV6 rest group { r with count := r.count + 1, value := r.value * 16 + d }
    | none =>
      if c == ':' then
        if r.count == 0 then
          if r.gap.isSome then none else readV6 rest rest { r with gap := some r.bytes.length }
        else if rest.isEmpty || r.bytes.length + 2 > 16 then none
        else readV6 rest rest
          { r with bytes := r.bytes ++ [r.value / 256, r.value % 256], count := 0, value := 0 }
      else if c == '.' && r.bytes.length + 4 ≤ 16 then
        (dottedQuad group).map fun quad => (r.bytes ++ quad, r.gap)
      else none

/-- The sixteen bytes of a numeric IPv6 address: hex groups of up to four digits between colons,
one `::` standing for as many zero groups as are missing, and perhaps a dotted quad last. -/
def ipv6Bytes (s : String) : Option (List Nat) :=
  let cs := match s.toList with
    | ':' :: ':' :: rest => some (':' :: rest)
    | ':' :: _ => none
    | cs => some cs
  match cs with
  | none => none
  | some cs =>
    match readV6 cs cs {} with
    | none => none
    | some (bytes, none) => if bytes.length == 16 then some bytes else none
    | some (bytes, some at_) =>
      if bytes.length == 16 then none
      else some (bytes.take at_ ++ List.replicate (16 - bytes.length) 0 ++ bytes.drop at_)

/-- Whether text is an IPv6 address that maps an IPv4 one (`::ffff:a.b.c.d`), which an IPv4
lookup takes as that address. -/
def v4Mapped (s : String) : Bool :=
  match ipv6Bytes s with
  | some bytes => bytes.take 12 == List.replicate 10 0 ++ [255, 255]
  | none => false

/-- Whether a host resolves to an IPv4 address: a numeric one, an IPv4-mapped IPv6 one, or the
loopback name. -/
def resolvesIPv4 (host : String) : Bool :=
  ipv4Ok host || v4Mapped host || host.toLower == "localhost"

/-- Whether a zone names an interface: the loopback one by name, or a number not 0 in 32 bits. -/
def zoneOk (zone : String) : Bool :=
  match zone.toList with
  | [] => false
  | c :: _ => if c.isAlpha then zone == "lo" else cNumber zone % 4294967296 != 0

/-- Drop the brackets around a host, if it has both. -/
def unbracket (h : String) : String :=
  if h.length ≥ 2 && h.startsWith "[" && h.endsWith "]" then
    String.ofList (h.toList.drop 1).dropLast
  else h

/-- Whether a `ws` address resolves: `host:port`, with an optional path after the last `/`. -/
def wsAddressOk (name : String) : Bool :=
  (splitLast name ':').isSome &&
    let hostName := match splitLast name '/' with
      | some (before, _) => before
      | none => name
    match splitLast hostName ':' with
    | none => false
    | some (addr, port) =>
      let host := unbracket ((addr.splitOn "/").headD "")
      portOk port &&
        match splitLast host '%' with
        | some (h, zone) => zoneOk zone && resolvesIPv4 h
        | none => resolvesIPv4 host

/-- Whether an address can be connected to, and if not, why. -/
def connectCheck (addr : String) : Except String Unit :=
  match addr.splitOn "://" with
  | protocol :: rest@(_ :: _) =>
    let address := "://".intercalate rest
    if protocol.isEmpty || address.isEmpty then .error invalidArgument
    else if protocol == "inproc" then .ok ()
    else if protocol == "tcp" then
      if tcpAddressOk address then .ok () else .error invalidArgument
    else if protocol == "ws" then
      if wsAddressOk address then .ok () else .error invalidArgument
    else if protocol == "ipc" then
      if address.utf8ByteSize ≥ 108 then .error nameTooLong
      else if address == "@" then .error invalidArgument
      else .ok ()
    else if protocol == "udp" then .error incompatibleProtocol
    else .error protocolNotSupported
  | _ => .error invalidArgument

/-- The panic of an address with a NUL byte in it: where the first NUL is, and all the bytes. -/
def nulPanic (addr : String) : Option String :=
  let bytes := addr.toUTF8.toList
  (bytes.findIdx? (· == 0)).map fun i =>
    "called `Result::unwrap()` on an `Err` value: NulError(" ++ toString i ++ ", [" ++
      ", ".intercalate (bytes.map fun b => toString b.toNat) ++ "])"

/-- Connect a new socket to an address: a NUL byte aborts, else the address is checked. -/
def connectWith (t : Sockets) (addr : String) (add : Sockets → Nat × Sockets) :
    Except Error Nat × Sockets :=
  match nulPanic addr with
  | some m => (.error (.transport invalidArgument), { t with aborted := some m })
  | none =>
    match connectCheck addr with
    | .error r => (.error (.transport r), t)
    | .ok () => let (n, t) := add t; (.ok n, t)

/-- A PULL socket with an identity, connected to an address. -/
def pullOn (t : Sockets) (identity : Option Bytes) (addr : String) : Except Error Nat × Sockets :=
  if t.terminated then (.error .terminated, t)
  else if (identity.map fun i => i.isEmpty || i.length > 255).getD false then
    (.error (.transport invalidArgument), t)
  else t.connectWith addr fun t => (t.pulls.length, { t with pulls := t.pulls ++ [{ addr, identity }] })

/-- A PUB socket connected to an address. -/
def publishOn (t : Sockets) (addr : String) : Except Error Nat × Sockets :=
  if t.terminated then (.error .terminated, t)
  else t.connectWith addr fun t => (t.pubs.length, { t with pubs := t.pubs ++ [addr] })

/-- The live PULL socket connected to the server's request address, if any. -/
def requestPuller (t : Sockets) : Option Nat :=
  match t.requestAddr with
  | some a => t.pulls.findIdx? fun p => p.live && p.addr == a
  | none => none

/-- The messages queued for a PULL socket. -/
def queued (t : Sockets) (i : Nat) : List Bytes := ((t.pulls[i]?).map (·.inbox)).getD []

/-- The server pushes a message: it is queued at the PULL socket on the request address. -/
def push (t : Sockets) (msg : Bytes) : Sockets :=
  match t.requestPuller with
  | some i => { t with pulls := t.pulls.modify i fun p => { p with inbox := p.inbox ++ [msg] } }
  | none => t

/-- The next message of a PULL socket. -/
def take (t : Sockets) (i : Nat) : Wait Bytes × Sockets :=
  match t.queued i with
  | m :: rest => (.ready m, { t with pulls := t.pulls.modify i fun p => { p with inbox := rest } })
  | [] => (if t.terminated then .failed .terminated else .idle, t)

/-- Send on a PUB socket: it reaches the server's SUB socket when connected to its address. -/
def publishTo (t : Sockets) (o : Nat) (msg : Bytes) : Except Error Unit × Sockets :=
  if t.terminated then (.error .terminated, t)
  else if t.replyAddr.isSome && t.pubs[o]? == t.replyAddr then
    (.ok (), { t with replies := t.replies ++ [msg] })
  else (.ok (), t)

/-- Close a PULL socket, throwing its queue away. -/
def closePull (t : Sockets) (i : Nat) : Sockets :=
  { t with pulls := t.pulls.modify i fun p => { p with live := false, inbox := [] } }

/-- Everything the server's SUB socket holds; nothing once terminated. -/
def drain (t : Sockets) : List Bytes × Sockets :=
  if t.terminated then ([], t) else (t.replies, { t with replies := [] })

/-- Begin terminating the context. -/
def terminate (t : Sockets) : Sockets := { t with terminated := true }

end Sockets

instance : Transport Sockets where
  pull := Sockets.pullOn
  publish := Sockets.publishOn
  recv := Sockets.take
  send := Sockets.publishTo
  closeInbound := Sockets.closePull
  closeOutbound t _ := t

end HandlerKit
