import HandlerKit.Yaml.Scanner

/-!
# Parsing YAML tokens into events

The parser turns the token stream into a stream of events: the start and end of the stream,
of each document, sequence and mapping, and scalars and aliases. It is a state machine with a
stack of states to return to (one per open collection) and a stack of the marks where the open
collections began, for failure messages.

An event carries the mark where its node begins: the anchor or tag in front of the node when
there is one. A missing node (a key with no value, `---` followed by nothing) is an empty plain
scalar at the place where it is missing.

Tags are resolved here: `!!x` stands for `tag:yaml.org,2002:x`, `!x` for itself, and `%TAG`
directives add handles for the document they head. A tag is bytes; a handle's prefix and the
suffix each count only up to their first zero byte, as NUL-terminated strings do.
-/

namespace HandlerKit.Yaml

/-- The kinds of events. -/
inductive EventKind where
  | streamStart
  | streamEnd
  | documentStart
  | documentEnd
  | alias (name : String)
  | scalar (anchor : Option String) (tag : Option (List UInt8)) (value : String) (style : ScalarStyle)
  | sequenceStart (anchor : Option String) (tag : Option (List UInt8))
  | sequenceEnd
  | mappingStart (anchor : Option String) (tag : Option (List UInt8))
  | mappingEnd
  deriving DecidableEq, Repr

/-- An event and the mark where its node begins. -/
structure Event where
  kind : EventKind
  mark : Mark
  deriving Repr

/-- What the parser expects next. -/
inductive ParseState where
  | streamStart
  | implicitDocumentStart
  | documentStart
  | documentContent
  | documentEnd
  | blockNode
  | blockSequenceFirstEntry
  | blockSequenceEntry
  | indentlessSequenceEntry
  | blockMappingFirstKey
  | blockMappingKey
  | blockMappingValue
  | flowSequenceFirstEntry
  | flowSequenceEntry
  | flowSequenceEntryMappingKey
  | flowSequenceEntryMappingValue
  | flowSequenceEntryMappingEnd
  | flowMappingFirstKey
  | flowMappingKey
  | flowMappingValue
  | flowMappingEmptyValue
  | finished
  deriving DecidableEq, Repr

/-- The state of the parser. -/
structure Parser where
  scanner : Scanner
  state : ParseState := .streamStart
  states : List ParseState := []
  marks : List Mark := []
  /-- Tag handles of the current document and their prefixes. -/
  tagDirectives : List (String × List UInt8) := []

/-- Parsing steps. -/
abbrev Parse := StateT Parser (Except Failure)

/-- The handles every document has. -/
def defaultTagDirectives : List (String × List UInt8) :=
  [("!", [33]), ("!!", "tag:yaml.org,2002:".toUTF8.toList)]

namespace Parse

/-- The next token. -/
def peek : Parse Token := do
  let p ← get
  let (t, s) ← p.scanner.peek
  set { p with scanner := s }
  return t

/-- Move past the next token. -/
def skipToken : Parse Unit :=
  modify fun p => { p with scanner := p.scanner.skipToken }

/-- Fail at a mark. -/
def failAt {α : Type} (problem : String) (mark : Mark) : Parse α :=
  throw { problem, mark }

/-- Fail at a mark, within a construct that began at another. -/
def failWithin {α : Type} (context : String) (start : Mark) (problem : String) (mark : Mark) :
    Parse α :=
  throw { problem, mark, context := some (context, start) }

/-- Go on in state `s`. -/
def goto (s : ParseState) : Parse Unit := modify fun p => { p with state := s }

/-- Remember a state to return to. -/
def pushState (s : ParseState) : Parse Unit := modify fun p => { p with states := s :: p.states }

/-- Return to the last remembered state. -/
def popState : Parse Unit :=
  modify fun p => { p with state := p.states.headD .finished, states := p.states.drop 1 }

/-- Remember where a collection began. -/
def pushMark (m : Mark) : Parse Unit := modify fun p => { p with marks := m :: p.marks }

/-- Where the innermost open collection began. -/
def popMark : Parse Mark := do
  let p ← get
  set { p with marks := p.marks.drop 1 }
  return p.marks.headD {}

/-- An empty plain scalar. -/
def emptyScalar (m : Mark) : Event := ⟨.scalar none none "" .plain, m⟩

/-- Add a tag handle; a handle given twice by `%TAG` is a failure, a default one is ignored. -/
def addTagDirective (handle : String) (pre : List UInt8) (allowDuplicate : Bool) (mark : Mark) :
    Parse Unit := do
  let p ← get
  if p.tagDirectives.any (·.1 == handle) then
    if !allowDuplicate then failAt "found duplicate %TAG directive" mark
  else set { p with tagDirectives := p.tagDirectives ++ [(handle, pre)] }

/-- The `%YAML` and `%TAG` directives in front of a document, then the default handles. -/
def processDirectives : Parse Unit := do
  let rec go : Nat → Bool → Parse Unit
    | 0, _ => pure ()
    | n + 1, seenVersion => do
      let t ← peek
      match t.kind with
      | .versionDirective major minor =>
        if seenVersion then failAt "found duplicate %YAML directive" t.start
        if major != 1 || (minor != 1 && minor != 2) then
          failAt "found incompatible YAML document" t.start
        skipToken
        go n true
      | .tagDirective handle pre =>
        addTagDirective handle pre false t.start
        skipToken
        go n seenVersion
      | _ => pure ()
  go ((← get).scanner.text.size + 2) false
  let t ← peek
  for (h, pre) in defaultTagDirectives do addTagDirective h pre true t.start

/-- The start of the stream. -/
def streamStart : Parse Event := do
  let t ← peek
  match t.kind with
  | .streamStart =>
    goto .implicitDocumentStart
    skipToken
    return ⟨.streamStart, t.start⟩
  | _ => failAt "did not find expected <stream-start>" t.start

/-- The start of a document, or the end of the stream. -/
def documentStart (implicit : Bool) : Parse Event := do
  if !implicit then
    let rec skipEnds : Nat → Parse Unit
      | 0 => pure ()
      | n + 1 => do
        if (← peek).kind == .documentEnd then
          skipToken
          skipEnds n
    skipEnds ((← get).scanner.text.size + 2)
  let t ← peek
  let isDirective := match t.kind with
    | .versionDirective .. | .tagDirective .. => true
    | _ => false
  if implicit && !isDirective && t.kind != .documentStart && t.kind != .streamEnd then
    processDirectives
    pushState .documentEnd
    goto .blockNode
    return ⟨.documentStart, t.start⟩
  else if t.kind != .streamEnd then
    let start := t.start
    processDirectives
    let t ← peek
    if t.kind != .documentStart then failAt "did not find expected <document start>" t.start
    pushState .documentEnd
    goto .documentContent
    skipToken
    return ⟨.documentStart, start⟩
  else
    goto .finished
    skipToken
    return ⟨.streamEnd, t.start⟩

/-- The content of an explicit document, perhaps empty. -/
def documentContent (node : Parse Event) : Parse Event := do
  let t ← peek
  match t.kind with
  | .versionDirective .. | .tagDirective .. | .documentStart | .documentEnd | .streamEnd =>
    popState
    return emptyScalar t.start
  | _ => node

/-- The end of a document, explicit (`...`) or not. -/
def documentEnd : Parse Event := do
  let t ← peek
  if t.kind == .documentEnd then skipToken
  modify fun p => { p with tagDirectives := [] }
  goto .documentStart
  return ⟨.documentEnd, t.start⟩

/-- A node: an alias, or a scalar or collection with its anchor and tag. -/
def node (block indentless : Bool) : Parse Event := do
  let t ← peek
  match t.kind with
  | .alias name =>
    popState
    skipToken
    return ⟨.alias name, t.start⟩
  | _ =>
    let start := t.start
    let (anchor, tagged, tagMark) ← match t.kind with
      | .anchor name => do
        skipToken
        let t2 ← peek
        match t2.kind with
        | .tag h s =>
          skipToken
          pure (some name, some (h, s), t2.start)
        | _ => pure (some name, none, start)
      | .tag h s => do
        skipToken
        let t2 ← peek
        match t2.kind with
        | .anchor name =>
          skipToken
          pure (some name, some (h, s), start)
        | _ => pure (none, some (h, s), start)
      | _ => pure (none, none, start)
    let tag ← match tagged with
      | none => pure none
      | some (h, s) =>
        if h.isEmpty then pure (some s)
        else match (← get).tagDirectives.find? (·.1 == h) with
          | some (_, pre) => pure (some (cText pre ++ cText s))
          | none => failWithin "while parsing a node" start "found undefined tag handle" tagMark
    let t ← peek
    match t.kind with
    | .blockEntry =>
      if indentless then
        goto .indentlessSequenceEntry
        return ⟨.sequenceStart anchor tag, start⟩
      else if anchor.isSome || tag.isSome then
        popState
        return ⟨.scalar anchor tag "" .plain, start⟩
      else
        failWithin (if block then "while parsing a block node" else "while parsing a flow node")
          start "did not find expected node content" t.start
    | .scalar value style =>
      popState
      skipToken
      return ⟨.scalar anchor tag value style, start⟩
    | .flowSequenceStart =>
      goto .flowSequenceFirstEntry
      return ⟨.sequenceStart anchor tag, start⟩
    | .flowMappingStart =>
      goto .flowMappingFirstKey
      return ⟨.mappingStart anchor tag, start⟩
    | .blockSequenceStart =>
      if block then
        goto .blockSequenceFirstEntry
        return ⟨.sequenceStart anchor tag, start⟩
      else if anchor.isSome || tag.isSome then
        popState
        return ⟨.scalar anchor tag "" .plain, start⟩
      else failWithin "while parsing a flow node" start "did not find expected node content" t.start
    | .blockMappingStart =>
      if block then
        goto .blockMappingFirstKey
        return ⟨.mappingStart anchor tag, start⟩
      else if anchor.isSome || tag.isSome then
        popState
        return ⟨.scalar anchor tag "" .plain, start⟩
      else failWithin "while parsing a flow node" start "did not find expected node content" t.start
    | _ =>
      if anchor.isSome || tag.isSome then
        popState
        return ⟨.scalar anchor tag "" .plain, start⟩
      else
        failWithin (if block then "while parsing a block node" else "while parsing a flow node")
          start "did not find expected node content" t.start

/-- An item of a block sequence, or its end. -/
def blockSequenceEntry (first : Bool) : Parse Event := do
  if first then
    pushMark (← peek).start
    skipToken
  let t ← peek
  match t.kind with
  | .blockEntry =>
    let m := t.stop
    skipToken
    let t ← peek
    if t.kind != .blockEntry && t.kind != .blockEnd then
      pushState .blockSequenceEntry
      node true false
    else
      goto .blockSequenceEntry
      return emptyScalar m
  | .blockEnd =>
    popState
    let _ ← popMark
    skipToken
    return ⟨.sequenceEnd, t.start⟩
  | _ =>
    failWithin "while parsing a block collection" (← popMark) "did not find expected '-' indicator" t.start

/-- An item of a sequence written without indentation under a mapping key, or its end. -/
def indentlessSequenceEntry : Parse Event := do
  let t ← peek
  match t.kind with
  | .blockEntry =>
    let m := t.stop
    skipToken
    let t ← peek
    if t.kind != .blockEntry && t.kind != .key && t.kind != .value && t.kind != .blockEnd then
      pushState .indentlessSequenceEntry
      node true false
    else
      goto .indentlessSequenceEntry
      return emptyScalar m
  | _ =>
    popState
    return ⟨.sequenceEnd, t.start⟩

/-- A key of a block mapping, or its end. -/
def blockMappingKey (first : Bool) : Parse Event := do
  if first then
    pushMark (← peek).start
    skipToken
  let t ← peek
  match t.kind with
  | .key =>
    let m := t.stop
    skipToken
    let t ← peek
    if t.kind != .key && t.kind != .value && t.kind != .blockEnd then
      pushState .blockMappingValue
      node true true
    else
      goto .blockMappingValue
      return emptyScalar m
  | .blockEnd =>
    popState
    let _ ← popMark
    skipToken
    return ⟨.mappingEnd, t.start⟩
  | _ =>
    failWithin "while parsing a block mapping" (← popMark) "did not find expected key" t.start

/-- A value of a block mapping, perhaps empty. -/
def blockMappingValue : Parse Event := do
  let t ← peek
  match t.kind with
  | .value =>
    let m := t.stop
    skipToken
    let t ← peek
    if t.kind != .key && t.kind != .value && t.kind != .blockEnd then
      pushState .blockMappingKey
      node true true
    else
      goto .blockMappingKey
      return emptyScalar m
  | _ =>
    goto .blockMappingKey
    return emptyScalar t.start

/-- An item of a flow sequence, or its end. -/
def flowSequenceEntry (first : Bool) : Parse Event := do
  if first then
    pushMark (← peek).start
    skipToken
  let t ← peek
  let t ← if t.kind != .flowSequenceEnd && !first then
      if t.kind == .flowEntry then
        skipToken
        peek
      else
        failWithin "while parsing a flow sequence" (← popMark) "did not find expected ',' or ']'" t.start
    else pure t
  if t.kind == .key then
    goto .flowSequenceEntryMappingKey
    skipToken
    return ⟨.mappingStart none none, t.start⟩
  else if t.kind != .flowSequenceEnd then
    pushState .flowSequenceEntry
    node false false
  else
    popState
    let _ ← popMark
    skipToken
    return ⟨.sequenceEnd, t.start⟩

/-- The key of a one-pair mapping inside a flow sequence. -/
def flowSequenceEntryMappingKey : Parse Event := do
  let t ← peek
  if t.kind != .value && t.kind != .flowEntry && t.kind != .flowSequenceEnd then
    pushState .flowSequenceEntryMappingValue
    node false false
  else
    goto .flowSequenceEntryMappingValue
    return emptyScalar t.start

/-- The value of a one-pair mapping inside a flow sequence. -/
def flowSequenceEntryMappingValue : Parse Event := do
  let t ← peek
  let t ← if t.kind == .value then
      skipToken
      let t2 ← peek
      if t2.kind != .flowEntry && t2.kind != .flowSequenceEnd then
        pushState .flowSequenceEntryMappingEnd
        return ← node false false
      pure t2
    else pure t
  goto .flowSequenceEntryMappingEnd
  return emptyScalar t.start

/-- The end of a one-pair mapping inside a flow sequence. -/
def flowSequenceEntryMappingEnd : Parse Event := do
  let t ← peek
  goto .flowSequenceEntry
  return ⟨.mappingEnd, t.start⟩

/-- A key of a flow mapping, or its end. -/
def flowMappingKey (first : Bool) : Parse Event := do
  if first then
    pushMark (← peek).start
    skipToken
  let t ← peek
  let t ← if t.kind != .flowMappingEnd && !first then
      if t.kind == .flowEntry then
        skipToken
        peek
      else
        failWithin "while parsing a flow mapping" (← popMark) "did not find expected ',' or '\x7d'" t.start
    else pure t
  if t.kind == .key then
    skipToken
    let t ← peek
    if t.kind != .value && t.kind != .flowEntry && t.kind != .flowMappingEnd then
      pushState .flowMappingValue
      node false false
    else
      goto .flowMappingValue
      return emptyScalar t.start
  else if t.kind != .flowMappingEnd then
    pushState .flowMappingEmptyValue
    node false false
  else
    popState
    let _ ← popMark
    skipToken
    return ⟨.mappingEnd, t.start⟩

/-- A value of a flow mapping, perhaps empty. -/
def flowMappingValue (empty : Bool) : Parse Event := do
  let t ← peek
  if empty then
    goto .flowMappingKey
    return emptyScalar t.start
  let t ← if t.kind == .value then
      skipToken
      let t2 ← peek
      if t2.kind != .flowEntry && t2.kind != .flowMappingEnd then
        pushState .flowMappingKey
        return ← node false false
      pure t2
    else pure t
  goto .flowMappingKey
  return emptyScalar t.start

/-- The next event. -/
def next : Parse Event := do
  match (← get).state with
  | .streamStart => streamStart
  | .implicitDocumentStart => documentStart true
  | .documentStart => documentStart false
  | .documentContent => documentContent (node true false)
  | .documentEnd => documentEnd
  | .blockNode => node true false
  | .blockSequenceFirstEntry => blockSequenceEntry true
  | .blockSequenceEntry => blockSequenceEntry false
  | .indentlessSequenceEntry => indentlessSequenceEntry
  | .blockMappingFirstKey => blockMappingKey true
  | .blockMappingKey => blockMappingKey false
  | .blockMappingValue => blockMappingValue
  | .flowSequenceFirstEntry => flowSequenceEntry true
  | .flowSequenceEntry => flowSequenceEntry false
  | .flowSequenceEntryMappingKey => flowSequenceEntryMappingKey
  | .flowSequenceEntryMappingValue => flowSequenceEntryMappingValue
  | .flowSequenceEntryMappingEnd => flowSequenceEntryMappingEnd
  | .flowMappingFirstKey => flowMappingKey true
  | .flowMappingKey => flowMappingKey false
  | .flowMappingValue => flowMappingValue false
  | .flowMappingEmptyValue => flowMappingValue true
  | .finished => return ⟨.streamEnd, (← get).scanner.mark⟩

end Parse

/-- A parser at the start of a text. -/
def Parser.start (text : String) : Parser := { scanner := Scanner.start text }

end HandlerKit.Yaml
