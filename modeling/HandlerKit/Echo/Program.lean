import HandlerKit.Echo
import HandlerKit.Config.Load
import HandlerKit.Transport.Socket

/-!
# The echo program

The echo program takes the path of its configuration as its first argument (`m2rs.yaml` when
there is none; further arguments are ignored), loads it, and opens a connection in a fresh
socket context as the configuration's handler section says. It then serves with the echo loop
until its context is terminated, which nothing outside the program can do.

**Where it stops by itself.** A configuration that cannot be read or checked, and a connection
that cannot be opened, end the program with a panic: exit code 101 and a message that names
the step and shows the error in its debugging form. An address the socket library cannot take
at all panics with that library's own message.
-/

namespace HandlerKit.Echo

/-- The exit code of a program that panicked. -/
def panicExitCode : Nat := 101

/-- How the program's start ends. -/
inductive Start where
  /-- The program panics with this message. -/
  | panicked (message : String)
  /-- The connection is open and the program serves on it. -/
  | serving (conn : Connection) (sockets : Sockets)

/-- The configuration path the arguments name. -/
def configPath (args : List String) : String := args.headD "m2rs.yaml"

/-- Start the program from the outcome of loading its configuration. -/
def startWith (config : Except Error HandlerConfig) : Start :=
  match config with
  | .error e => .panicked ("config load failed: " ++ e.debug)
  | .ok cfg =>
    match Connection.fromConfig ({} : Sockets) cfg.handler with
    | (r, t) =>
      match t.aborted, r with
      | some m, _ => .panicked m
      | none, .error e => .panicked ("failed to open connection: " ++ e.debug)
      | none, .ok c => .serving c t

/-- Start the program with its arguments, in a directory whose files are `fs`. -/
def start (args : List String) (fs : Files) : Start :=
  startWith (Config.loadFile fs (configPath args))

end HandlerKit.Echo
