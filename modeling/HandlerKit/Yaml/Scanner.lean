import HandlerKit.Yaml.Token

/-!
# Scanning YAML text into tokens

The scanner reads the text one character at a time and queues tokens for the parser. It follows
the block structure by a stack of indentation columns: a block collection opens when a line's
content starts right of the current column, and closes (a `blockEnd` token) when a line starts
left of it. Flow collections (`[…]`, `{…}`) ignore indentation.

**Simple keys.** A key written without `?` is only known to be a key when the `:` after it is
seen. So every token that could start such a key is remembered as a *possible simple key*, and
tokens are handed to the parser only once no possible key could still claim the front of the
queue. When the `:` comes, a `key` token (and perhaps a `blockMappingStart`) is inserted where
the possible key began. A possible key dies at the end of its line or 1024 bytes later; a
key that had to be one (in a block, at the indentation column) and dies is the failure
"could not find expected ':'".

Every loop reads at least one character per step, so each is bounded by the characters left
(`budget`); the bound is never the reason a loop stops.
-/

namespace HandlerKit.Yaml

/-- A token that may turn out to start a simple key. -/
structure SimpleKey where
  possible : Bool := false
  required : Bool := false
  tokenNumber : Nat := 0
  mark : Mark := {}
  deriving Repr

/-- The state of the scanner. -/
structure Scanner where
  text : Array Char
  mark : Mark := {}
  queue : List Token := []
  /-- Tokens already handed to the parser. -/
  parsed : Nat := 0
  /-- Whether the front of the queue may be handed out without scanning more. -/
  available : Bool := false
  started : Bool := false
  ended : Bool := false
  indent : Int := -1
  indents : List Int := []
  keyAllowed : Bool := false
  /-- Possible simple keys, one per flow level, innermost first. -/
  keys : List SimpleKey := []
  flowLevel : Nat := 0

/-- Scanning steps. -/
abbrev Scan := StateT Scanner (Except Failure)

/-! ## Characters -/

/-- Line breaks: carriage return, line feed, next line, line and paragraph separators. -/
def isBreak (c : Char) : Bool :=
  c == '\r' || c == '\n' || c == '\x85' || c == '\u2028' || c == '\u2029'

/-- Blanks: space and tab. -/
def isBlank (c : Char) : Bool := c == ' ' || c == '\t'

/-- The end of the text, read as NUL (which the text itself may not hold). -/
def isEnd (c : Char) : Bool := c == '\x00'

/-- A blank, a break or the end. -/
def isBlankOrEnd (c : Char) : Bool := isBlank c || isBreak c || isEnd c

/-- A break or the end. -/
def isBreakOrEnd (c : Char) : Bool := isBreak c || isEnd c

/-- ASCII letters and digits, `_` and `-`. -/
def isWordChar (c : Char) : Bool :=
  ('0' ≤ c && c ≤ '9') || ('A' ≤ c && c ≤ 'Z') || ('a' ≤ c && c ≤ 'z') || c == '_' || c == '-'

/-- ASCII digits. -/
def isDigitChar (c : Char) : Bool := '0' ≤ c && c ≤ '9'

/-- The value of a hexadecimal digit. -/
def hexDigit? (c : Char) : Option Nat :=
  if '0' ≤ c && c ≤ '9' then some (c.toNat - 48)
  else if 'a' ≤ c && c ≤ 'f' then some (c.toNat - 87)
  else if 'A' ≤ c && c ≤ 'F' then some (c.toNat - 55)
  else none

/-- Characters YAML text may hold: tab, line feed, carriage return, printable ASCII, next line,
and the non-control code points above. -/
def isAllowed (c : Char) : Bool :=
  let n := c.toNat
  n == 9 || n == 10 || n == 13 || (0x20 ≤ n && n ≤ 0x7E) || n == 0x85 ||
    (0xA0 ≤ n && n ≤ 0xD7FF) || (0xE000 ≤ n && n ≤ 0xFFFD) || (0x10000 ≤ n && n ≤ 0x10FFFF)

/-- The number of UTF-8 bytes of a character. -/
def utf8Width (c : Char) : Nat :=
  if c.toNat < 0x80 then 1 else if c.toNat < 0x800 then 2 else if c.toNat < 0x10000 then 3 else 4

namespace Scan

/-- The character `k` places ahead. -/
def charAt (k : Nat) : Scan Char := do
  let s ← get
  return s.text.getD (s.mark.index + k) '\x00'

/-- The current mark. -/
def here : Scan Mark := do return (← get).mark

/-- Characters left plus two: a bound on loops that read a character per step. -/
def budget : Scan Nat := do
  let s ← get
  return s.text.size - s.mark.index + 2

/-- Fail at the current mark. -/
def fail {α : Type} (context : Option (String × Mark)) (problem : String) : Scan α := do
  throw { problem, mark := (← get).mark, context }

/-- Move past one character of a line. -/
def skip : Scan Unit := do
  let w := utf8Width (← charAt 0)
  modify fun s =>
    { s with mark := { s.mark with index := s.mark.index + 1, offset := s.mark.offset + w,
                                   column := s.mark.column + 1 } }

/-- Move past `width` characters that end a line. -/
def newline (width : Nat) : Scan Unit := do
  let c ← charAt 0
  let w := if width == 2 then 2 else utf8Width c
  modify fun s =>
    { s with mark := { index := s.mark.index + width, offset := s.mark.offset + w,
                       line := s.mark.line + 1, column := 0 } }

/-- Move past a line break (carriage return and line feed together count as one). -/
def skipLine : Scan Unit := do
  let c0 ← charAt 0
  let c1 ← charAt 1
  if c0 == '\r' && c1 == '\n' then newline 2
  else if isBreak c0 then newline 1

/-- Append the current character to `acc` and move past it. -/
def read (acc : String) : Scan String := do
  let c ← charAt 0
  skip
  return acc.push c

/-- Append a line break to `acc` as `\n` (line and paragraph separators stay as they are) and
move past it. -/
def readLine (acc : String) : Scan String := do
  let c0 ← charAt 0
  let c1 ← charAt 1
  if c0 == '\r' && c1 == '\n' then
    newline 2
    return acc.push '\n'
  else if c0 == '\r' || c0 == '\n' || c0 == '\x85' then
    newline 1
    return acc.push '\n'
  else if c0 == '\u2028' || c0 == '\u2029' then
    newline 1
    return acc.push c0
  else return acc

/-- Repeat a step while it answers `true`, at most `n` times. -/
def repeatWhile : Nat → Scan Bool → Scan Unit
  | 0, _ => pure ()
  | n + 1, step => do
    if (← step) then repeatWhile n step

/-- Move past characters while they satisfy `p`. -/
def skipWhile (p : Char → Scan Bool) : Scan Unit := do
  repeatWhile (← budget) do
    if (← p (← charAt 0)) then
      skip
      return true
    else return false

/-- Append characters to `acc` while they satisfy `p`. -/
def readWhile (p : Char → Bool) (acc : String) : Scan String := do
  let rec go : Nat → String → Scan String
    | 0, a => pure a
    | n + 1, a => do
      if p (← charAt 0) then go n (← read a) else pure a
  go (← budget) acc

/-! ## The token queue and simple keys -/

/-- Put a token at the end of the queue. -/
def enqueue (t : Token) : Scan Unit :=
  modify fun s => { s with queue := s.queue ++ [t] }

/-- Put a token at a place in the queue. -/
def insertAt (i : Nat) (t : Token) : Scan Unit :=
  modify fun s => { s with queue := s.queue.take i ++ t :: s.queue.drop i }

/-- Whether a possible key has died: it is on an earlier line or over 1024 bytes back. -/
def isStale (s : Scanner) (k : SimpleKey) : Bool :=
  k.possible && (k.mark.line < s.mark.line || k.mark.offset + 1024 < s.mark.offset)

/-- The failure of a key that had to be one. -/
def keyFailure (s : Scanner) (k : SimpleKey) : Failure :=
  { problem := "could not find expected ':'", mark := s.mark,
    context := some ("while scanning a simple key", k.mark) }

/-- Let possible keys that have died go; a required one is a failure. -/
def staleKeys : Scan Unit := do
  let s ← get
  match s.keys.reverse.find? fun k => isStale s k && k.required with
  | some k => throw (keyFailure s k)
  | none => set { s with keys := s.keys.map fun k => if isStale s k then { k with possible := false } else k }

/-- The innermost possible key can no longer be one; a required one is a failure. -/
def removeKey : Scan Unit := do
  let s ← get
  match s.keys with
  | k :: rest =>
    if k.possible && k.required then throw (keyFailure s k)
    set { s with keys := { k with possible := false } :: rest }
  | [] => pure ()

/-- Remember that the next token may start a simple key. -/
def saveKey : Scan Unit := do
  let s ← get
  if s.keyAllowed then
    let key : SimpleKey := {
      possible := true
      required := s.flowLevel == 0 && s.indent == (s.mark.column : Int)
      tokenNumber := s.parsed + s.queue.length
      mark := s.mark }
    removeKey
    modify fun s => { s with keys := match s.keys with
      | _ :: rest => key :: rest
      | [] => [key] }

/-- Enter a flow collection. -/
def increaseFlowLevel : Scan Unit :=
  modify fun s => { s with keys := {} :: s.keys, flowLevel := s.flowLevel + 1 }

/-- Leave a flow collection. -/
def decreaseFlowLevel : Scan Unit :=
  modify fun s =>
    if s.flowLevel == 0 then s else { s with flowLevel := s.flowLevel - 1, keys := s.keys.drop 1 }

/-- Open a block collection at `column` if it lies right of the current indentation; its start
token goes at the end of the queue, or before the token numbered `number`. -/
def rollIndent (column : Int) (number : Option Nat) (kind : TokenKind) (m : Mark) : Scan Unit := do
  let s ← get
  if s.flowLevel == 0 && s.indent < column then
    set { s with indents := s.indent :: s.indents, indent := column }
    let t : Token := ⟨kind, m, m⟩
    match number with
    | none => enqueue t
    | some n => insertAt (n - s.parsed) t

/-- Close the block collections that lie right of `column`. -/
def unrollIndent (column : Int) : Scan Unit := do
  if (← get).flowLevel == 0 then
    repeatWhile ((← get).indents.length + 1) do
      let s ← get
      if s.indent > column then
        enqueue ⟨.blockEnd, s.mark, s.mark⟩
        modify fun s => { s with indent := s.indents.headD (-1), indents := s.indents.drop 1 }
        return true
      else return false

/-! ## Between tokens -/

/-- Skip blanks, comments and line breaks up to the next token. Tabs count as blanks only
inside flow collections or where no simple key may start. A byte order mark that starts a line
is passed over, and takes up the first column. -/
def scanToNextToken : Scan Unit := do
  repeatWhile (← budget) do
    if (← here).column == 0 && (← charAt 0) == '\uFEFF' then skip
    skipWhile fun c => do
      let s ← get
      return c == ' ' || ((s.flowLevel > 0 || !s.keyAllowed) && c == '\t')
    if (← charAt 0) == '#' then skipWhile fun c => pure !(isBreakOrEnd c)
    if isBreak (← charAt 0) then
      skipLine
      if (← get).flowLevel == 0 then modify fun s => { s with keyAllowed := true }
      return true
    else return false

/-! ## Directives -/

/-- The name of a directive after `%`. -/
def scanDirectiveName (start : Mark) : Scan String := do
  let name ← readWhile isWordChar ""
  if name.isEmpty then
    fail (some ("while scanning a directive", start)) "could not find expected directive name"
  if !isBlankOrEnd (← charAt 0) then
    fail (some ("while scanning a directive", start)) "found unexpected non-alphabetical character"
  return name

/-- One number of a `%YAML` directive, at most nine digits. -/
def scanVersionNumber (start : Mark) : Scan Nat := do
  -- a tenth digit is refused where it stands
  let rec go : Nat → Nat → Nat → Scan (Nat × Nat)
    | 0, value, len => pure (value, len)
    | n + 1, value, len => do
      let c ← charAt 0
      if isDigitChar c then
        if len ≥ 9 then
          fail (some ("while scanning a %YAML directive", start)) "found extremely long version number"
        skip
        go n (value * 10 + (c.toNat - 48)) (len + 1)
      else pure (value, len)
  let (value, len) ← go 10 0 0
  if len == 0 then
    fail (some ("while scanning a %YAML directive", start)) "did not find expected version number"
  return value

/-- The handle of a tag: `!`, `!!` or `!word!`. -/
def scanTagHandle (directive : Bool) (start : Mark) : Scan String := do
  if (← charAt 0) != '!' then
    fail (some (if directive then "while scanning a tag directive" else "while scanning a tag", start))
      "did not find expected '!'"
  let h ← readWhile isWordChar (← read "")
  if (← charAt 0) == '!' then read h
  else if directive && h != "!" then
    fail (some ("while parsing a tag directive", start)) "did not find expected '!'"
  else return h

/-- The octets of one URI escape sequence (`%XX`, as many as one UTF-8 character needs): only
the leading octet's high bits and the trailing octets' are checked, so the octets need not be
well-formed UTF-8. -/
def scanUriEscapes (directive : Bool) (start : Mark) (acc : List UInt8) : Scan (List UInt8) := do
  let context := some (if directive then "while parsing a %TAG directive" else "while parsing a tag", start)
  let rec go : Nat → Nat → List UInt8 → Scan (List UInt8)
    | 0, _, bytes => pure bytes
    | n + 1, width, bytes => do
      let c0 ← charAt 0
      match hexDigit? (← charAt 1), hexDigit? (← charAt 2) with
      | some h1, some h2 =>
        if c0 != '%' then fail context "did not find URI escaped octet"
        let octet := h1 * 16 + h2
        let width ← if width == 0 then do
            let w := if octet < 0x80 then 1 else if octet / 32 == 6 then 2
              else if octet / 16 == 14 then 3 else if octet / 8 == 30 then 4 else 0
            if w == 0 then fail context "found an incorrect leading UTF-8 octet"
            pure w
          else do
            if octet / 64 != 2 then fail context "found an incorrect trailing UTF-8 octet"
            pure width
        skip; skip; skip
        let bytes := bytes ++ [octet.toUInt8]
        if width == 1 then pure bytes else go n (width - 1) bytes
      | _, _ => fail context "did not find URI escaped octet"
  return acc ++ (← go 5 0 [])

/-- Characters a tag URI may hold; inside `!<…>` also `,`, `[` and `]`. -/
def isUriChar (verbatim : Bool) (c : Char) : Bool :=
  isWordChar c || ";/?:@&=+$.%!~*'()".contains c || (verbatim && ",[]".contains c)

/-- The URI part of a tag as bytes, continuing `head` (whose leading `!` is dropped). -/
def scanTagUri (verbatim directive : Bool) (head : String) (start : Mark) : Scan (List UInt8) := do
  let rec go : Nat → List UInt8 → Nat → Scan (List UInt8 × Nat)
    | 0, acc, len => pure (acc, len)
    | n + 1, acc, len => do
      let c ← charAt 0
      if isUriChar verbatim c then
        if c == '%' then go n (← scanUriEscapes directive start acc) (len + 1)
        else
          skip
          go n (acc ++ [c.toNat.toUInt8]) (len + 1)
      else pure (acc, len)
  let (uri, len) ← go (← budget) ((head.toList.drop 1).map fun c => c.toNat.toUInt8) head.length
  if len == 0 then
    fail (some (if directive then "while parsing a %TAG directive" else "while parsing a tag", start))
      "did not find expected tag URI"
  return uri

/-- A directive line: `%YAML major.minor` or `%TAG handle prefix`. -/
def scanDirective : Scan Token := do
  let start ← here
  skip
  let name ← scanDirectiveName start
  let kind ← if name == "YAML" then do
      skipWhile fun c => pure (isBlank c)
      let major ← scanVersionNumber start
      if (← charAt 0) != '.' then
        fail (some ("while scanning a %YAML directive", start)) "did not find expected digit or '.' character"
      skip
      let minor ← scanVersionNumber start
      pure (TokenKind.versionDirective major minor)
    else if name == "TAG" then do
      skipWhile fun c => pure (isBlank c)
      let handle ← scanTagHandle true start
      if !isBlank (← charAt 0) then
        fail (some ("while scanning a %TAG directive", start)) "did not find expected whitespace"
      skipWhile fun c => pure (isBlank c)
      let uri ← scanTagUri true true "" start
      if !isBlankOrEnd (← charAt 0) then
        fail (some ("while scanning a %TAG directive", start)) "did not find expected whitespace or line break"
      pure (TokenKind.tagDirective handle uri)
    else fail (some ("while scanning a directive", start)) "found unknown directive name"
  let stop ← here
  skipWhile fun c => pure (isBlank c)
  if (← charAt 0) == '#' then skipWhile fun c => pure !(isBreakOrEnd c)
  if !isBreakOrEnd (← charAt 0) then
    fail (some ("while scanning a directive", start)) "did not find expected comment or line break"
  if isBreak (← charAt 0) then skipLine
  return ⟨kind, start, stop⟩

/-! ## Anchors, aliases and tags -/

/-- `&name` or `*name`. -/
def scanAnchor (isAlias : Bool) : Scan Token := do
  let start ← here
  skip
  let name ← readWhile isWordChar ""
  let stop ← here
  let c ← charAt 0
  if name.isEmpty || !(isBlankOrEnd c || "?:,]\x7d%@`".contains c) then
    fail (some (if isAlias then "while scanning an alias" else "while scanning an anchor", start))
      "did not find expected alphabetic or numeric character"
  return ⟨if isAlias then .alias name else .anchor name, start, stop⟩

/-- `!<uri>`, `!handle!suffix`, `!suffix` or `!`. -/
def scanTag : Scan Token := do
  let start ← here
  let (handle, suffix) ← if (← charAt 1) == '<' then do
      skip; skip
      let suffix ← scanTagUri true false "" start
      if (← charAt 0) != '>' then fail (some ("while scanning a tag", start)) "did not find the expected '>'"
      skip
      pure ("", suffix)
    else do
      let h ← scanTagHandle false start
      if h.length > 1 && h.back == '!' then
        let suffix ← scanTagUri false false "" start
        pure (h, suffix)
      else
        let suffix ← scanTagUri false false h start
        -- `!` alone, or a suffix whose first byte is zero, is the tag `!`
        pure (if (cText suffix).isEmpty then ("", [33]) else ("!", suffix))
  let c ← charAt 0
  if !isBlankOrEnd c then
    if (← get).flowLevel == 0 || c != ',' then
      fail (some ("while scanning a tag", start)) "did not find expected whitespace or line break"
  return ⟨.tag handle suffix, start, ← here⟩

/-! ## Scalars -/

/-- Text of a scalar being read, with the blanks and breaks not yet decided on. -/
structure Run where
  text : String := ""
  leadingBreak : String := ""
  trailingBreaks : String := ""
  whitespaces : String := ""
  leadingBlanks : Bool := false

/-- Put the pending blanks into the text: a single line break folds to a space, more breaks
stand for themselves less the first; blanks within a line stay. -/
def Run.fold (r : Run) : Run :=
  if r.leadingBlanks then
    if r.leadingBreak.front == '\n' && !r.leadingBreak.isEmpty then
      let text := if r.trailingBreaks.isEmpty then r.text.push ' ' else r.text ++ r.trailingBreaks
      { r with text, trailingBreaks := "", leadingBreak := "", leadingBlanks := false }
    else
      { r with
        text := r.text ++ r.leadingBreak ++ r.trailingBreaks
        leadingBreak := ""
        trailingBreaks := ""
        leadingBlanks := false }
  else { r with text := r.text ++ r.whitespaces, whitespaces := "" }

/-- Whether the text at the current place is `---` or `...` at the start of a line, followed by
a blank or the end. -/
def atDocumentIndicator : Scan Bool := do
  let c0 ← charAt 0
  let c1 ← charAt 1
  let c2 ← charAt 2
  let c3 ← charAt 3
  return (← here).column == 0 &&
    ((c0 == '-' && c1 == '-' && c2 == '-') || (c0 == '.' && c1 == '.' && c2 == '.')) &&
    isBlankOrEnd c3

/-- Blanks and breaks inside a scalar; `tabCheck` holds the indentation a tab may not cut. -/
def scanBlanks (tabCheck : Option (Int × Mark × String)) (r : Run) : Scan Run := do
  let rec go : Nat → Run → Scan Run
    | 0, r => pure r
    | n + 1, r => do
      let c ← charAt 0
      if isBlank c then
        match tabCheck with
        | some (indent, start, context) =>
          if r.leadingBlanks && ((← here).column : Int) < indent && c == '\t' then
            fail (some (context, start)) "found a tab character that violates indentation"
        | none => pure ()
        if !r.leadingBlanks then go n { r with whitespaces := ← read r.whitespaces }
        else
          skip
          go n r
      else if isBreak c then
        if !r.leadingBlanks then
          go n { r with whitespaces := "", leadingBreak := ← readLine "", leadingBlanks := true }
        else go n { r with trailingBreaks := ← readLine r.trailingBreaks }
      else pure r
  go (← budget) r

/-- A plain scalar. -/
def scanPlainScalar : Scan Token := do
  let s0 ← get
  let indent : Int := s0.indent + 1
  let start := s0.mark
  let context := "while scanning a plain scalar"
  -- the characters of one line, up to a blank, a break or an indicator
  let rec line : Nat → Run → Mark → Scan (Run × Mark)
    | 0, r, stop => pure (r, stop)
    | n + 1, r, stop => do
      let c0 ← charAt 0
      let c1 ← charAt 1
      let flow := (← get).flowLevel > 0
      if isBlankOrEnd c0 then pure (r, stop)
      else if flow && c0 == ':' && ",?[]\x7b\x7d".contains c1 then
        fail (some (context, start)) "found unexpected ':'"
      else if (c0 == ':' && isBlankOrEnd c1) || (flow && ",[]\x7b\x7d".contains c0) then pure (r, stop)
      else
        let r := r.fold
        let text ← read r.text
        line n { r with text } (← here)
  let rec lines : Nat → Run → Mark → Scan (Run × Mark)
    | 0, r, stop => pure (r, stop)
    | n + 1, r, stop => do
      if (← atDocumentIndicator) || (← charAt 0) == '#' then pure (r, stop)
      else
        let (r, stop) ← line (← budget) r stop
        let c ← charAt 0
        if !(isBlank c || isBreak c) then pure (r, stop)
        else
          let r ← scanBlanks (some (indent, start, context)) r
          if (← get).flowLevel == 0 && ((← here).column : Int) < indent then pure (r, stop)
          else lines n r stop
  let (r, stop) ← lines (← budget) {} start
  if r.leadingBlanks then modify fun s => { s with keyAllowed := true }
  return ⟨.scalar r.text .plain, start, stop⟩

/-- The character of a one-letter escape in a double-quoted scalar. There is no escape for the
single quote. -/
def simpleEscape (c : Char) : Option Char :=
  match c with
  | '0' => some '\x00' | 'a' => some '\x07' | 'b' => some '\x08' | 't' => some '\t'
  | '\t' => some '\t' | 'n' => some '\n' | 'v' => some '\x0b' | 'f' => some '\x0c'
  | 'r' => some '\r' | 'e' => some '\x1b' | ' ' => some ' ' | '"' => some '"'
  | '/' => some '/' | '\\' => some '\\' | 'N' => some '\x85'
  | '_' => some '\xa0' | 'L' => some '\u2028' | 'P' => some '\u2029'
  | _ => none

/-- A single- or double-quoted scalar. -/
def scanQuotedScalar (single : Bool) : Scan Token := do
  let start ← here
  skip
  let quote := if single then '\'' else '"'
  let context := "while scanning a quoted scalar"
  let escContext := "while parsing a quoted scalar"
  -- non-blank characters; answers whether an escaped line break ended them
  let rec word : Nat → Run → Scan Run
    | 0, r => pure r
    | n + 1, r => do
      let c0 ← charAt 0
      let c1 ← charAt 1
      if isBlankOrEnd c0 then pure r
      else if single && c0 == '\'' && c1 == '\'' then
        skip; skip
        word n { r with text := r.text.push '\'' }
      else if c0 == quote then pure r
      else if !single && c0 == '\\' && isBreak c1 then
        skip
        skipLine
        pure { r with leadingBlanks := true }
      else if !single && c0 == '\\' then
        let width : Nat := if c1 == 'x' then 2 else if c1 == 'u' then 4 else if c1 == 'U' then 8 else 0
        if width == 0 then
          match simpleEscape c1 with
          | some e =>
            skip; skip
            word n { r with text := r.text.push e }
          | none => fail (some (escContext, start)) "found unknown escape character"
        else
          skip; skip
          let rec hex : Nat → Nat → Scan Nat
            | 0, v => pure v
            | k + 1, v => do
              match hexDigit? (← charAt (width - (k + 1))) with
              | some d => hex k (v * 16 + d)
              | none => fail (some (escContext, start)) "did not find expected hexdecimal number"
          let v ← hex width 0
          if (0xD800 ≤ v && v ≤ 0xDFFF) || v > 0x10FFFF then
            fail (some (escContext, start)) "found invalid Unicode character escape code"
          for _ in List.range width do skip
          word n { r with text := r.text.push (Char.ofNat v) }
      else word n { r with text := ← read r.text }
  let rec body : Nat → Run → Scan Run
    | 0, r => pure r
    | n + 1, r => do
      if (← atDocumentIndicator) then fail (some (context, start)) "found unexpected document indicator"
      if isEnd (← charAt 0) then fail (some (context, start)) "found unexpected end of stream"
      let r ← word (← budget) { r with leadingBlanks := false }
      if (← charAt 0) == quote then pure r
      else
        let r ← scanBlanks none r
        body n r.fold
  let r ← body (← budget) {}
  skip
  return ⟨.scalar r.text (if single then .singleQuoted else .doubleQuoted), start, ← here⟩

/-- Indentation spaces and empty lines before a line of a block scalar; fixes the indentation
from the first non-empty line when it was not given. -/
def scanBlockBreaks (indent : Nat) (breaks : String) (start : Mark) : Scan (Nat × String × Mark) := do
  let parentIndent := (← get).indent
  let rec go : Nat → Nat → String → Mark → Scan (Nat × String × Mark)
    | 0, maxIndent, b, stop => pure (maxIndent, b, stop)
    | n + 1, maxIndent, b, stop => do
      skipWhile fun c => do
        return (indent == 0 || (← here).column < indent) && c == ' '
      let col := (← here).column
      let maxIndent := max maxIndent col
      if (indent == 0 || col < indent) && (← charAt 0) == '\t' then
        fail (some ("while scanning a block scalar", start))
          "found a tab character where an indentation space is expected"
      if !isBreak (← charAt 0) then pure (maxIndent, b, stop)
      else
        let b ← readLine b
        go n maxIndent b (← here)
  let (maxIndent, b, stop) ← go (← budget) 0 breaks (← here)
  let indent :=
    if indent != 0 then indent
    else max 1 (max maxIndent (parentIndent + 1).toNat)
  return (indent, b, stop)

/-- A literal (`|`) or folded (`>`) block scalar. -/
def scanBlockScalar (literal : Bool) : Scan Token := do
  let start ← here
  skip
  let context := some ("while scanning a block scalar", start)
  let readChomping : Scan Int := do
    let c ← charAt 0
    if c == '+' then skip; return 1
    else if c == '-' then skip; return -1
    else return 0
  let readIncrement : Scan Nat := do
    let c ← charAt 0
    if isDigitChar c then
      if c == '0' then fail context "found an indentation indicator equal to 0"
      skip
      return c.toNat - 48
    else return 0
  let c ← charAt 0
  let (chomping, increment) ← if c == '+' || c == '-' then do
      let ch ← readChomping
      let inc ← readIncrement
      pure (ch, inc)
    else if isDigitChar c then do
      let inc ← readIncrement
      let ch ← readChomping
      pure (ch, inc)
    else pure (0, 0)
  skipWhile fun c => pure (isBlank c)
  if (← charAt 0) == '#' then skipWhile fun c => pure !(isBreakOrEnd c)
  if !isBreakOrEnd (← charAt 0) then fail context "did not find expected comment or line break"
  if isBreak (← charAt 0) then skipLine
  let parentIndent := (← get).indent
  let indent : Nat :=
    if increment != 0 then (if parentIndent >= 0 then (parentIndent + increment).toNat else increment)
    else 0
  let (indent, trailing, stop) ← scanBlockBreaks indent "" start
  let rec lines : Nat → String → String → String → Bool → Mark → Scan (String × String × String × Mark)
    | 0, text, lead, trail, _, stop => pure (text, lead, trail, stop)
    | n + 1, text, lead, trail, leadingBlank, stop => do
      if (← here).column != indent || isEnd (← charAt 0) then pure (text, lead, trail, stop)
      else
        let trailingBlank := isBlank (← charAt 0)
        let text :=
          if !literal && lead.front == '\n' && !lead.isEmpty && !leadingBlank && !trailingBlank then
            if trail.isEmpty then text.push ' ' else text
          else text ++ lead
        let text := text ++ trail
        let leadingBlank := isBlank (← charAt 0)
        let rec rest : Nat → String → Scan String
          | 0, t => pure t
          | k + 1, t => do if isBreakOrEnd (← charAt 0) then pure t else rest k (← read t)
        let text ← rest (← budget) text
        let lead ← readLine ""
        let (_, trail, stop) ← scanBlockBreaks indent "" start
        lines n text lead trail leadingBlank stop
  let (text, lead, trail, stop) ← lines (← budget) "" "" trailing false stop
  let text := if chomping != -1 then text ++ lead else text
  let text := if chomping == 1 then text ++ trail else text
  return ⟨.scalar text (if literal then .literal else .folded), start, stop⟩

/-! ## Tokens -/

/-- Queue the token made by `scan`. -/
def push (scan : Scan Token) : Scan Unit := do enqueue (← scan)

/-- A one-character token. -/
def single (kind : TokenKind) : Scan Unit := do
  let start ← here
  skip
  enqueue ⟨kind, start, ← here⟩

/-- The start of the stream, after checking that every character may stand in YAML text. -/
def fetchStreamStart : Scan Unit := do
  let s ← get
  let rec firstBad : List Char → Nat → Option Nat
    | [], _ => none
    | c :: cs, off => if isAllowed c then firstBad cs (off + utf8Width c) else some off
  match firstBad s.text.toList 0 with
  | some off => throw { problem := "control characters are not allowed", offset := off }
  | none =>
    set { s with indent := -1, keys := [{}], keyAllowed := true, started := true }
    enqueue ⟨.streamStart, s.mark, s.mark⟩

/-- The end of the stream, on a line of its own. -/
def fetchStreamEnd : Scan Unit := do
  let s ← get
  if s.mark.column != 0 then
    set { s with mark := { s.mark with line := s.mark.line + 1, column := 0 } }
  unrollIndent (-1)
  removeKey
  modify fun s => { s with keyAllowed := false }
  let m ← here
  enqueue ⟨.streamEnd, m, m⟩

/-- `---` or `...`. -/
def fetchDocumentIndicator (kind : TokenKind) : Scan Unit := do
  unrollIndent (-1)
  removeKey
  modify fun s => { s with keyAllowed := false }
  let start ← here
  skip; skip; skip
  enqueue ⟨kind, start, ← here⟩

/-- `[` or `{`. -/
def fetchFlowStart (kind : TokenKind) : Scan Unit := do
  saveKey
  increaseFlowLevel
  modify fun s => { s with keyAllowed := true }
  single kind

/-- `]` or `}`. -/
def fetchFlowEnd (kind : TokenKind) : Scan Unit := do
  removeKey
  decreaseFlowLevel
  modify fun s => { s with keyAllowed := false }
  single kind

/-- `,` in a flow collection. -/
def fetchFlowEntry : Scan Unit := do
  removeKey
  modify fun s => { s with keyAllowed := true }
  single .flowEntry

/-- `-` before an item of a block sequence. -/
def fetchBlockEntry : Scan Unit := do
  let s ← get
  if s.flowLevel == 0 then
    if !s.keyAllowed then fail none "block sequence entries are not allowed in this context"
    rollIndent s.mark.column none .blockSequenceStart s.mark
  removeKey
  modify fun s => { s with keyAllowed := true }
  single .blockEntry

/-- `?` before a complex key. -/
def fetchKey : Scan Unit := do
  let s ← get
  if s.flowLevel == 0 then
    if !s.keyAllowed then fail none "mapping keys are not allowed in this context"
    rollIndent s.mark.column none .blockMappingStart s.mark
  removeKey
  modify fun s => { s with keyAllowed := s.flowLevel == 0 }
  single .key

/-- `:` before a value; a possible simple key before it becomes a key. -/
def fetchValue : Scan Unit := do
  let s ← get
  match s.keys with
  | k :: rest =>
    if k.possible then
      insertAt (k.tokenNumber - s.parsed) ⟨.key, k.mark, k.mark⟩
      rollIndent k.mark.column (some k.tokenNumber) .blockMappingStart k.mark
      modify fun s => { s with keys := { k with possible := false } :: rest, keyAllowed := false }
    else
      if s.flowLevel == 0 then
        if !s.keyAllowed then fail none "mapping values are not allowed in this context"
        rollIndent s.mark.column none .blockMappingStart s.mark
      modify fun s => { s with keyAllowed := s.flowLevel == 0 }
  | [] => pure ()
  single .value

/-- Scan the next token into the queue. -/
def fetchNextToken : Scan Unit := do
  if !(← get).started then fetchStreamStart
  else
    scanToNextToken
    staleKeys
    unrollIndent ((← here).column : Int)
    let c0 ← charAt 0
    let c1 ← charAt 1
    let s ← get
    let flow := s.flowLevel > 0
    let col0 := s.mark.column == 0
    if isEnd c0 then fetchStreamEnd
    else if col0 && c0 == '%' then do
      unrollIndent (-1); removeKey
      modify fun s => { s with keyAllowed := false }
      push scanDirective
    else if (← atDocumentIndicator) && c0 == '-' then fetchDocumentIndicator .documentStart
    else if (← atDocumentIndicator) && c0 == '.' then fetchDocumentIndicator .documentEnd
    else if c0 == '[' then fetchFlowStart .flowSequenceStart
    else if c0 == '{' then fetchFlowStart .flowMappingStart
    else if c0 == ']' then fetchFlowEnd .flowSequenceEnd
    else if c0 == '}' then fetchFlowEnd .flowMappingEnd
    else if c0 == ',' then fetchFlowEntry
    else if c0 == '-' && isBlankOrEnd c1 then fetchBlockEntry
    else if c0 == '?' && (flow || isBlankOrEnd c1) then fetchKey
    else if c0 == ':' && (flow || isBlankOrEnd c1) then fetchValue
    else if c0 == '*' then do saveKey; modify fun s => { s with keyAllowed := false }; push (scanAnchor true)
    else if c0 == '&' then do saveKey; modify fun s => { s with keyAllowed := false }; push (scanAnchor false)
    else if c0 == '!' then do saveKey; modify fun s => { s with keyAllowed := false }; push scanTag
    else if c0 == '|' && !flow then do removeKey; modify fun s => { s with keyAllowed := true }; push (scanBlockScalar true)
    else if c0 == '>' && !flow then do removeKey; modify fun s => { s with keyAllowed := true }; push (scanBlockScalar false)
    else if c0 == '\'' then do saveKey; modify fun s => { s with keyAllowed := false }; push (scanQuotedScalar true)
    else if c0 == '"' then do saveKey; modify fun s => { s with keyAllowed := false }; push (scanQuotedScalar false)
    else if !(isBlankOrEnd c0 || "-?:,[]\x7b\x7d#&*!|>'\"%@`".contains c0) || (c0 == '-' && !isBlank c1)
        || (!flow && (c0 == '?' || c0 == ':') && !isBlankOrEnd c1) then do
      saveKey; modify fun s => { s with keyAllowed := false }; push scanPlainScalar
    else
      fail (some ("while scanning for the next token", s.mark)) "found character that cannot start any token"

/-- Whether the parser must wait for more tokens: the queue is empty, or a possible simple key
could still claim its front. -/
def needMore : Scan Bool := do
  if (← get).queue.isEmpty then return true
  staleKeys
  let s ← get
  return s.keys.any fun k => k.possible && k.tokenNumber == s.parsed

/-- Scan until the front of the queue may be handed out. -/
def fetchMoreTokens : Scan Unit := do
  if !(← get).available then
    let s ← get
    repeatWhile (4 * (s.text.size + s.indents.length + 8)) do
      if (← needMore) then
        fetchNextToken
        return true
      else return false
    modify fun s => { s with available := true }

end Scan

/-- A scanner at the start of a text. A byte order mark is an ordinary character of it, passed
over only where a line starts (`scanToNextToken`). -/
def Scanner.start (text : String) : Scanner := { text := text.toList.toArray }

/-- The next token, scanning as far as needed. -/
def Scanner.peek (s : Scanner) : Except Failure (Token × Scanner) := do
  let ((), s) ← Scan.fetchMoreTokens.run s
  match s.queue with
  | t :: _ => return (t, s)
  | [] => throw { problem := "did not find expected <stream-end>", mark := s.mark }

/-- Hand the front token to the parser. -/
def Scanner.skipToken (s : Scanner) : Scanner :=
  match s.queue with
  | t :: rest =>
    { s with
      queue := rest
      parsed := s.parsed + 1
      available := false
      ended := s.ended || t.kind == .streamEnd }
  | [] => s

end HandlerKit.Yaml
