import HandlerKit.Error
import HandlerKit.Text.Utf8

/-!
# Editing values

`dictSet` stores a value under a key of a dict and `listAppend` adds an item at the end of a
list; on a value of another kind both are a type mismatch that names the kind found, and the
value is left as it was.
-/

namespace HandlerKit.Value

/-- Store `v` under `k` in a dict, replacing an earlier value of `k`. -/
def dictSet (d : Value) (k : Bytes) (v : Value) : Except Error Value :=
  match d with
  | dict es => .ok (dict (insertEntry k v es))
  | other => .error (.typeMismatch Tag.dict.name other.tag)

/-- Add `x` after the items of a list. -/
def listAppend (l : Value) (x : Value) : Except Error Value :=
  match l with
  | list xs => .ok (list (xs ++ [x]))
  | other => .error (.typeMismatch Tag.list.name other.tag)

/-- The text of a string value, when its bytes are UTF-8. -/
def asText (v : Value) : Option (List Char) :=
  v.asBytes.bind Utf8.decode?

/-- The text stored under a key of a dict, when it is a string of UTF-8 bytes. -/
def getText? (v : Value) (k : Bytes) : Option (List Char) :=
  (v.get? k).bind asText

/-! ## Edits in place

Both edits change a value in place. One that is refused leaves the value as it was, so a run of
edits goes on from the last value that was stored.
-/

/-- An edit of a value in place. -/
inductive Edit where
  /-- Store a value under a key of a dict. -/
  | set (k : Bytes) (x : Value)
  /-- Add an item at the end of a list. -/
  | append (x : Value)

/-- What an edit answers for a value: the edited value, or the mismatch. -/
def Edit.apply : Edit → Value → Except Error Value
  | .set k x, v => v.dictSet k x
  | .append x, v => v.listAppend x

/-- The value after an edit in place: a refused edit leaves it unchanged. -/
def edit (v : Value) (e : Edit) : Value :=
  match e.apply v with
  | .ok w => w
  | .error _ => v

theorem dictSet_dict (es : List (Bytes × Value)) (k : Bytes) (v : Value) :
    (dict es).dictSet k v = .ok (dict (insertEntry k v es)) := rfl

theorem listAppend_list (xs : List Value) (x : Value) :
    (list xs).listAppend x = .ok (list (xs ++ [x])) := rfl

end HandlerKit.Value
