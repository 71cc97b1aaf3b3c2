import Cnc.CommandLine.Request
import Cnc.Config
import Cnc.Link.Error
import Cnc.Report.Simulation

/-!
# Carrying out requests

`CommandLine.execute` takes the arguments to what the program prints and the
code it exits with. The only thing it asks of the world is what a file
holds, so it is written for any monad that can tell; a pure one makes the
whole command line a function.

There is no serial device in that world. Listing the ports finds none, and
whatever needs a port fails where it would open it.
-/

namespace Cnc.CommandLine

/-- How the program ends. -/
inductive Outcome where
  /-- It has done what was asked, and printed these lines. -/
  | done (lines : List String)
  /-- It could not do it. -/
  | failed (message : String)
  /-- It was not asked properly. -/
  | misused (error : UsageError)
deriving DecidableEq, Repr

namespace Outcome

/-- The exit code. -/
def code : Outcome → UInt32
  | .done _ => 0
  | .failed _ => 1
  | .misused _ => 2

/-- What is printed on standard output. -/
def output : Outcome → String
  | .done lines => String.join (lines.map (· ++ "\n"))
  | _ => ""

/-- What is printed on standard error. -/
def complaint : Outcome → String
  | .done _ => ""
  | .failed message => "Error: " ++ message ++ "\n"
  | .misused error => "error: " ++ error.message ++ "\n\nFor more information, try '--help'.\n"

end Outcome

/-- The text of the help. -/
def usage : List String := [
  "Drive a GRBL CNC controller over a serial link",
  "",
  "Usage: cnc-host [OPTIONS] <COMMAND>",
  "",
  "Commands:",
  "  ports     List serial ports",
  "  simulate  Interpret a program and report its path without a machine",
  "  run       Stream a program to the controller",
  "  settings  Dump the controller's `$` settings",
  "  set       Write one `$` setting and print the value the controller reports back",
  "  help      Print this message or the help of the given subcommand(s)",
  "",
  "Options:",
  "  -c, --config <CONFIG>        TOML configuration file; built-in defaults when omitted",
  "  -p, --port <PORT>            Serial port, overrides `machine.port`",
  "      --log-level <LOG_LEVEL>  [default: info]",
  "  -h, --help                   Print help",
  "  -V, --version                Print version"]

/-- The name and the version of the program. -/
def versionLine : String := "cnc-host 0.1.0"

/-- What becomes of a request for a port: without a port it is refused, and no port can be
opened. -/
def connect (c : Config) : Outcome :=
  if c.port.isEmpty then .failed "no serial port configured; pass --port or set machine.port"
  else .failed (LinkError.ofOpening c.port .notFound FileFault.missing.message).message

/-- What a task comes to once its program file has been read. -/
def withProgram (bytes : Option ByteArray) (k : String → Outcome) : Outcome :=
  match fileText bytes with
  | .error fault => .failed fault.message
  | .ok text => k text

section

variable {m : Type → Type} [Monad m] (readFile : String → m (Option ByteArray))

/-- The configuration that the options ask for. -/
def configure (o : Options) : m (Except ConfigError Config) := do
  let base ← match o.config with
    | none => pure (.ok Config.standard)
    | some path => Config.ofFile <$> readFile path
  return base.map fun c => { c with port := o.port.getD c.port }

/-- Carries a task out. -/
def perform (c : Config) : Task → m Outcome
  | .ports => return .done []
  | .simulate file json => do
    return withProgram (← readFile file) fun text =>
      let s := Simulation.ofProgram c.arcs text
      .done (if json then s.json else s.summary)
  | .run file => do return withProgram (← readFile file) fun _ => connect c
  | .settings => return connect c
  | .set .. => return connect c

/-- **Carries out what the arguments ask for.** The configuration is read before anything else. -/
def execute (args : List String) : m Outcome := do
  match Request.read args with
  | .error e => return .misused e
  | .ok .help => return .done usage
  | .ok .version => return .done [versionLine]
  | .ok (.perform o task) =>
    match ← configure readFile o with
    | .error e => return .failed e.message
    | .ok c => perform readFile c task

end

end Cnc.CommandLine
