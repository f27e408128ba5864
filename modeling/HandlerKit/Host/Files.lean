/-!
# A read-only view of a file tree

Programs that read a file by name are given the files they may see as a value: the entries of
a tree, keyed by absolute paths as lists of components, and a working directory. A path is
resolved one component at a time, as the operating system does: `.` and empty components stay,
`..` goes up (not above the root), a name must exist and be at most 255 bytes long, and every
step must start from a directory. Reading a directory fails. A path with a NUL byte in it, or
of 4096 bytes or more, is refused before any lookup.
-/

namespace HandlerKit

/-- Why reading a file failed, in the operating system's words. -/
inductive ReadFailure where
  | notFound
  | isDirectory
  | notDirectory
  /-- A component, or the whole path, is longer than the system allows. -/
  | nameTooLong
  /-- The path holds a NUL byte, which no system path can. -/
  | nulInName
  /-- Any other error the system reports, by its number and description. -/
  | system (code : Nat) (description : String)
  /-- The file is not UTF-8 text. -/
  | notText
  deriving DecidableEq, Repr

/-- The operating system's text for a failed read. -/
def ReadFailure.text : ReadFailure → String
  | .notFound => "No such file or directory (os error 2)"
  | .isDirectory => "Is a directory (os error 21)"
  | .notDirectory => "Not a directory (os error 20)"
  | .nameTooLong => "File name too long (os error 36)"
  | .nulInName => "file name contained an unexpected NUL byte"
  | .system code d => d ++ " (os error " ++ toString code ++ ")"
  | .notText => "stream did not contain valid UTF-8"

/-- A failure from the system's error number and description. -/
def ReadFailure.ofCode (code : Nat) (description : String) : ReadFailure :=
  if code == 2 then .notFound
  else if code == 21 then .isDirectory
  else if code == 20 then .notDirectory
  else if code == 36 then .nameTooLong
  else .system code description

/-- What a path names. -/
inductive Entry where
  | file (text : String)
  | directory
  deriving DecidableEq, Repr

/-- The files a program may read, and where it runs. -/
structure Files where
  entries : List (List String × Entry) := []
  cwd : List String := []
  deriving Repr

namespace Files

/-- The longest name a directory holds, in bytes. -/
def nameMax : Nat := 255

/-- The length, in bytes, at which a path is too long. -/
def pathMax : Nat := 4096

/-- Why a path is refused before any lookup, if it is: a NUL byte, then its length. -/
def pathFailure? (path : String) : Option ReadFailure :=
  if path.contains (Char.ofNat 0) then some .nulInName
  else if path.utf8ByteSize ≥ pathMax then some .nameTooLong
  else none

/-- The components of an absolute path. -/
def components (path : String) : List String :=
  (path.splitOn "/").filter fun c => !c.isEmpty

/-- A view with the given files and directories; the directories above each are added. -/
def build (cwd : String) (files : List (String × String)) (dirs : List String) : Files :=
  let fileEntries := files.map fun (p, t) => (components p, Entry.file t)
  let above (p : List String) : List (List String) := (List.range p.length).map p.take
  let dirPaths := (dirs.map components ++ (files.map fun f => components f.1).flatMap above ++
    above (components cwd) ++ [components cwd]).eraseDups
  { entries := fileEntries ++ dirPaths.map fun p => (p, Entry.directory), cwd := components cwd }

/-- What an absolute path names, if anything. -/
def entry? (fs : Files) (p : List String) : Option Entry :=
  if p.isEmpty then some .directory else fs.entries.lookup p

/-- Walk the components of a path from a directory. -/
def walk (fs : Files) : List String → List String → Except ReadFailure Entry
  | cur, [] => match fs.entry? cur with
    | some e => .ok e
    | none => .error .notFound
  | cur, c :: rest =>
    match fs.entry? cur with
    | some .directory =>
      if c.isEmpty || c == "." then walk fs cur rest
      else if c == ".." then walk fs cur.dropLast rest
      else if c.utf8ByteSize > nameMax then .error .nameTooLong
      else
        let next := cur ++ [c]
        match fs.entry? next with
        | some _ => walk fs next rest
        | none => .error .notFound
    | some (.file _) => .error .notDirectory
    | none => .error .notFound

/-- What a path names, from the working directory. -/
def resolve (fs : Files) (path : String) : Except ReadFailure Entry :=
  match pathFailure? path with
  | some e => .error e
  | none =>
    if path.isEmpty then .error .notFound
    else
      let parts := path.splitOn "/"
      if path.startsWith "/" then fs.walk [] parts else fs.walk fs.cwd parts

/-- The text of the file a path names. -/
def read (fs : Files) (path : String) : Except ReadFailure String :=
  match fs.resolve path with
  | .ok (.file t) => .ok t
  | .ok .directory => .error .isDirectory
  | .error e => .error e

end Files

end HandlerKit
