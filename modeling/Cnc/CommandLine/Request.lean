import Cnc.Decimal.Numeral

/-!
# Requests on the command line

The arguments are options of the program, then the name of a command, then
the arguments of that command. An option takes its value from the rest of
its own argument or from the next argument, and may be given once. A value
of its own begins with a dash only if it is nothing but a dash; after `--`
every argument of a command is taken as it stands.

Arguments are read from left to right, and the first one that cannot be
understood decides the error. Help and the version are given as soon as they
are asked for.
-/

namespace Cnc.CommandLine

/-- What the host is asked to do. -/
inductive Task where
  /-- List the serial ports. -/
  | ports
  /-- Report on a program without a machine. -/
  | simulate (file : String) (json : Bool)
  /-- Stream a program to the controller. -/
  | run (file : String)
  /-- List the settings of the controller. -/
  | settings
  /-- Write one setting. -/
  | set (id : UInt16) (value : String)
deriving DecidableEq, Repr

/-- The options before the command. -/
structure Options where
  /-- The configuration file. -/
  config : Option String
  /-- The serial port that replaces the configured one. -/
  port : Option String
  /-- How much is logged, as it is written. -/
  logLevel : Option String
deriving DecidableEq, Repr

/-- What the arguments ask for. -/
inductive Request where
  | help
  | version
  | perform (options : Options) (task : Task)
deriving DecidableEq, Repr

/-- Why arguments cannot be understood. -/
inductive UsageError where
  /-- No command is named. -/
  | noCommand
  /-- An argument that nothing takes. -/
  | unexpected (argument : String)
  /-- An option without its value. -/
  | noValue (option : String)
  /-- An option that was given before. -/
  | repeated (option : String)
  /-- A value that its option or its place does not take. -/
  | badValue (value : String)
  /-- A command without all of its arguments. -/
  | incomplete (command : String)
deriving DecidableEq, Repr

/-- The wording of an error. -/
def UsageError.message : UsageError → String
  | .noCommand => "a command is required"
  | .unexpected argument => "unexpected argument '" ++ argument ++ "'"
  | .noValue option => "a value is required for '" ++ option ++ "'"
  | .repeated option => "'" ++ option ++ "' cannot be used multiple times"
  | .badValue value => "invalid value '" ++ value ++ "'"
  | .incomplete command => "'" ++ command ++ "' is missing an argument"

/-! ## Single arguments -/

/-- Whether an argument is taken as a value or a name: it begins with no dash, or is only one. -/
def isWord (arg : String) : Bool := arg = "-" || arg.toList.head? ≠ some '-'

/-- The options that take a value. -/
inductive OptionName where
  | config
  | port
  | logLevel
deriving DecidableEq, Repr

/-- The long spelling of an option. -/
def OptionName.text : OptionName → String
  | .config => "--config"
  | .port => "--port"
  | .logLevel => "--log-level"

/-- What an argument that begins with a dash is. -/
inductive Dashed where
  | help
  | version
  /-- An option, perhaps with a value in the same argument. -/
  | valued (name : OptionName) (value : Option String)
  | unknown
deriving DecidableEq, Repr

/-- An argument that begins with a single dash: the letter after it decides, and for an option the
rest is its value, an equals sign at its beginning left out. -/
def shortOption (letters : List Char) : Dashed :=
  let value (rest : List Char) : Option String :=
    match rest with
    | [] => none
    | '=' :: text => some (String.ofList text)
    | text => some (String.ofList text)
  match letters with
  | 'h' :: _ => .help
  | 'V' :: _ => .version
  | 'c' :: rest => .valued .config (value rest)
  | 'p' :: rest => .valued .port (value rest)
  | _ => .unknown

/-- An argument that begins with two dashes: a name, perhaps with a value after an equals sign. -/
def longOption (text : List Char) : Dashed :=
  let name := String.ofList (text.takeWhile (· ≠ '='))
  let value := match text.dropWhile (· ≠ '=') with
    | [] => none
    | _ :: rest => some (String.ofList rest)
  if name = "help" ∧ value = none then .help
  else if name = "version" ∧ value = none then .version
  else if name = "config" then .valued .config value
  else if name = "port" then .valued .port value
  else if name = "log-level" then .valued .logLevel value
  else .unknown

/-- What an argument that begins with a dash is. -/
def dashed (arg : String) : Dashed :=
  match arg.toList with
  | '-' :: '-' :: text => longOption text
  | '-' :: letters => shortOption letters
  | _ => .unknown

/-- Whether a text names a level of logging: by a word in any case, or by a number from 1 to 5. -/
def isLogLevel (s : String) : Bool :=
  let name := String.ofList (s.toList.map Char.toLower)
  ["error", "warn", "info", "debug", "trace"].contains name
    || ((readNatural? s.toList).map fun n => 1 ≤ n && n ≤ 5).getD false

/-- The id of a setting: an integer that fits in 16 bits without a sign. -/
def settingId? (s : String) : Option UInt16 :=
  let (negative, ds) := takeSign s.toList
  let n := naturalOfDigits ds
  if ds.isEmpty || !ds.all isAsciiDigit || (negative && n ≠ 0) then none
  else if n < UInt16.size then some (UInt16.ofNat n) else none

/-! ## Commands -/

/-- What the arguments of a command have to look like. -/
structure Shape where
  /-- For each place, whether a text may stand in it. -/
  places : List (String → Bool)
  /-- Whether `--json` may be given. -/
  json : Bool

/-- The arguments of a command as they were found. -/
structure Arguments where
  words : List String
  json : Bool

/-- Reads the arguments of a command after those that were found already; `none` if help is asked
for. `literal` says whether `--` came before. -/
def Shape.read (shape : Shape) (command : String) (literal : Bool) (found : Arguments) :
    List String → Except UsageError (Option Arguments)
  | [] =>
    if found.words.length < shape.places.length then .error (.incomplete command)
    else .ok (some found)
  | arg :: rest =>
    if literal || isWord arg then
      match shape.places[found.words.length]? with
      | none => .error (.unexpected arg)
      | some accepts =>
        if accepts arg then
          shape.read command literal { found with words := found.words ++ [arg] } rest
        else .error (.badValue arg)
    else if arg = "--" then shape.read command true found rest
    else if arg = "--json" ∧ shape.json then
      if found.json then .error (.repeated arg)
      else shape.read command literal { found with json := true } rest
    else if dashed arg = .help then .ok none
    else .error (.unexpected arg)

/-- The names of the commands. -/
def commandNames : List String := ["ports", "simulate", "run", "settings", "set", "help"]

/-- The request that a command and its arguments make. -/
def readCommand (options : Options) (command : String) (args : List String) :
    Except UsageError Request := do
  let read (places : List (String → Bool)) (json : Bool) (task : Arguments → Option Task) :
      Except UsageError Request := do
    match ← Shape.read ⟨places, json⟩ command false ⟨[], false⟩ args with
    | none => .ok .help
    | some found =>
      match task found with
      | some task => .ok (.perform options task)
      | none => .error (.incomplete command)
  let isFile (s : String) : Bool := !s.isEmpty
  match command with
  | "ports" => read [] false fun _ => some .ports
  | "simulate" => read [isFile] true fun a => a.words.head?.map fun file => .simulate file a.json
  | "run" => read [isFile] false fun a => a.words.head?.map fun file => .run file
  | "settings" => read [] false fun _ => some .settings
  | "set" =>
    read [fun s => (settingId? s).isSome, fun _ => true] false fun a =>
      match a.words with
      | [id, value] => (settingId? id).map fun id => .set id value
      | _ => none
  | "help" =>
    match args with
    | [] => .ok .help
    | topic :: rest =>
      if commandNames.contains topic then
        match rest with
        | [] => .ok .help
        | extra :: _ => .error (.unexpected extra)
      else .error (.unexpected topic)
  | other => .error (.unexpected other)

/-! ## The whole command line -/

/-- The options with one more. -/
def Options.add (o : Options) (name : OptionName) (value : String) : Except UsageError Options :=
  match name with
  | .config =>
    if o.config.isSome then .error (.repeated name.text) else .ok { o with config := some value }
  | .port =>
    if o.port.isSome then .error (.repeated name.text) else .ok { o with port := some value }
  | .logLevel =>
    if o.logLevel.isSome then .error (.repeated name.text)
    else if isLogLevel value then .ok { o with logLevel := some value }
    else .error (.badValue value)

/-- Reads the arguments after those whose options were read already. -/
def readFrom (o : Options) : List String → Except UsageError Request
  | [] => .error .noCommand
  | arg :: rest =>
    if isWord arg then readCommand o arg rest
    else
      match dashed arg with
      | .help => .ok .help
      | .version => .ok .version
      | .unknown => .error (.unexpected arg)
      | .valued name (some value) =>
        match o.add name value with
        | .error e => .error e
        | .ok o => readFrom o rest
      | .valued name none =>
        match rest with
        | [] => .error (.noValue name.text)
        | value :: rest =>
          if isWord value then
            match o.add name value with
            | .error e => .error e
            | .ok o => readFrom o rest
          else .error (.noValue name.text)

/-- **The request that the arguments make.** -/
def Request.read (args : List String) : Except UsageError Request :=
  readFrom ⟨none, none, none⟩ args

end Cnc.CommandLine
