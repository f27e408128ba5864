import HandlerKit.Echo.Program

/-!
# The echo program's command line

Reads the configuration file the arguments name, starts the echo program, and reports a panic
on standard error with exit code 101. A program that is serving waits for requests until it is
stopped from outside.
-/

open HandlerKit

/-- A failed read, in the words the configuration loader reports. -/
def readFailureOf : IO.Error → ReadFailure
  | .noFileOrDirectory _ c d | .alreadyExists _ c d | .interrupted _ c d
  | .invalidArgument _ c d | .permissionDenied _ c d | .resourceExhausted _ c d
  | .inappropriateType _ c d | .noSuchThing _ c d => ReadFailure.ofCode c.toNat d
  | .otherError c d | .resourceBusy c d | .resourceVanished c d | .unsupportedOperation c d
  | .hardwareFault c d | .unsatisfiedConstraints c d | .illegalOperation c d
  | .protocolError c d | .timeExpired c d => ReadFailure.ofCode c.toNat d
  | .unexpectedEof => .system 0 "unexpected end of file"
  | .userError m => .system 0 m

/-- Read a file as UTF-8 text; a path the system cannot take is refused first. -/
def readText (path : String) : IO (Except ReadFailure String) := do
  if let some e := Files.pathFailure? path then return .error e
  try
    let bytes ← IO.FS.readBinFile path
    match String.fromUTF8? bytes with
    | some s => return .ok s
    | none => return .error .notText
  catch e =>
    return .error (readFailureOf e)

/-- Wait until stopped from outside. -/
partial def waitForever : IO Unit := do
  IO.sleep 60000
  waitForever

def main (args : List String) : IO UInt32 := do
  let path := Echo.configPath args
  match Echo.startWith (Config.ofRead path (← readText path)) with
  | .panicked message =>
    IO.eprintln message
    return Echo.panicExitCode.toUInt32
  | .serving c t =>
    match (Echo.run 1 c t 0).1 with
    | .finished _ => return 0
    | .serving _ =>
      waitForever
      return 0
