import HandlerKit.Yaml.Parser

/-!
# Loading the events of one document

A document is read as the list of its events, with anchors gone: an alias becomes the index of
an anchored event. Reading stops at the end of the first document. When the text breaks off
with a failure, the events before it are kept with the failure, so a reader of the document
meets the failure only if it reads that far.

**Anchors.** Anchors are numbered as they are met: an anchor takes the number of distinct
anchor names seen before it, and its name now stands for that number. A name used a second time
therefore takes a number that the next new name will take too. A number stands for the event it
was given to last, anywhere in the document; an alias takes its name's number when it is read,
and stands for that number's event once the document is loaded, which may come after it.

A text with no document at all loads as one `void` event at the end of the stream. A tag is
read as a NUL-terminated string: up to its first zero byte.
-/

namespace HandlerKit.Yaml

/-- An event of a loaded document. -/
inductive Item where
  | void
  | alias (target : Nat)
  | scalar (tag : Option (List UInt8)) (value : String) (style : ScalarStyle)
  | sequenceStart (tag : Option (List UInt8))
  | sequenceEnd
  | mappingStart (tag : Option (List UInt8))
  | mappingEnd
  deriving DecidableEq, Repr

/-- Why a document could not be read to its end. -/
inductive Broken where
  | failed (f : Failure)
  | unknownAnchor (mark : Mark)

/-- The events of a document, and how it broke off, if it did. -/
structure Document where
  items : Array (Item × Mark)
  broken : Option Broken := none

/-- Where a document loader stands: its parser, or nothing once the stream has ended. -/
abbrev Loader := Option Parser

/-- The anchors of a document so far: the number each name stands for, the event each number
was last given to (newest first in both), and how many distinct names there are. -/
structure Anchors where
  ids : List (String × Nat) := []
  targets : List (Nat × Nat) := []
  names : Nat := 0

namespace Anchors

/-- An anchor named `name` on the event at `index`: it takes the number of distinct names so far. -/
def add (t : Anchors) (name : String) (index : Nat) : Anchors :=
  { ids := (name, t.names) :: t.ids
    targets := (t.names, index) :: t.targets
    names := if (t.ids.lookup name).isSome then t.names else t.names + 1 }

/-- The anchors after an event that may carry one. -/
def addOpt (t : Anchors) (anchor : Option String) (index : Nat) : Anchors :=
  match anchor with
  | some a => t.add a index
  | none => t

/-- The event a number stands for. Every number an alias holds was given to an event when its
name was, so the fallback is never taken. -/
def target (t : Anchors) (id : Nat) : Nat := (t.targets.lookup id).getD 0

end Anchors

/-- A document of the events read, each alias holding its anchor number, made to point at the
events those numbers stand for at the end. -/
def finish (items : Array (Item × Mark)) (anchors : Anchors) (broken : Option Broken) : Document :=
  { items := items.map fun (item, m) =>
      match item with
      | .alias id => (.alias (anchors.target id), m)
      | _ => (item, m)
    broken }

/-- A bound on the events of a text: each event but empty scalars uses up a token, and tokens
are at most a few per character. -/
def eventBudget (p : Parser) : Nat := 8 * (p.scanner.text.size + 4)

/-- Read events into `items` until the document ends. -/
def collect : Nat → Parser → Anchors → Array (Item × Mark) → Bool → Option Document × Loader
  | 0, _, anchors, items, _ => (some (finish items anchors none), none)
  | n + 1, p, anchors, items, first =>
    match Parse.next.run p with
    | .error f => (some (finish items anchors (some (.failed f))), some p)
    | .ok (e, p) =>
      match e.kind with
      | .streamStart | .documentStart => collect n p anchors items first
      | .streamEnd =>
        if first then
          (some (finish (if items.isEmpty then #[(.void, e.mark)] else items) anchors none), none)
        else (none, none)
      | .documentEnd => (some (finish items anchors none), some p)
      | .alias name =>
        match anchors.ids.lookup name with
        | some id => collect n p anchors (items.push (.alias id, e.mark)) first
        | none => (some (finish items anchors (some (.unknownAnchor e.mark))), some p)
      | .scalar anchor tag value style =>
        collect n p (anchors.addOpt anchor items.size)
          (items.push (.scalar (tag.map cText) value style, e.mark)) first
      | .sequenceStart anchor tag =>
        collect n p (anchors.addOpt anchor items.size)
          (items.push (.sequenceStart (tag.map cText), e.mark)) first
      | .sequenceEnd => collect n p anchors (items.push (.sequenceEnd, e.mark)) first
      | .mappingStart anchor tag =>
        collect n p (anchors.addOpt anchor items.size)
          (items.push (.mappingStart (tag.map cText), e.mark)) first
      | .mappingEnd => collect n p anchors (items.push (.mappingEnd, e.mark)) first

/-- The next document, if there is one; the first is always there. -/
def Loader.next (l : Loader) (first : Bool) : Option Document × Loader :=
  match l with
  | none => (none, none)
  | some p => collect (eventBudget p) p {} #[] first

/-- The first document of a text, and the loader for the rest. -/
def loadFirst (text : String) : Document × Loader :=
  match Loader.next (some (Parser.start text)) true with
  | (some d, l) => (d, l)
  | (none, l) => ({ items := #[] }, l)

end HandlerKit.Yaml
