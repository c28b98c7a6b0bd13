import ClassDelta.Comparison.Settings
import ClassDelta.Journal
import ClassDelta.Report.Render

/-!
# Command lines

`CommandLine.parse` reads the arguments of the program: two paths, and options
in any order around them.  An option has a long name, or a short one, or both.
A value follows its option as the next argument, behind an equals sign, or right
behind a short name; short names without a value can share one dash.  Behind two
dashes everything is a path.

Arguments are looked at from left to right, and the first one that is wrong, or
that asks for help or the version, decides.
-/

namespace ClassDelta

/-- What can be asked for with an option. -/
inductive CommandOption
  | exclude
  | outputMode
  | extensions
  | includeSynthetics
  | jobs
  | oldest
  | newest
  | timeout
  | colours
  | verbose
  | help
  | version
deriving DecidableEq

namespace CommandOption

def all : List CommandOption :=
  [exclude, outputMode, extensions, includeSynthetics, jobs, oldest, newest, timeout, colours,
    verbose, help, version]

def longName? : CommandOption → Option String
  | exclude => some "exclude"
  | outputMode => some "output-mode"
  | extensions => some "class-exts"
  | includeSynthetics => some "include-synthetics"
  | jobs => some "jobs"
  | oldest => some "min-major"
  | newest => some "max-major"
  | timeout => some "timeout-ms"
  | colours => some "color"
  | verbose => none
  | help => some "help"
  | version => some "version"

def shortName? : CommandOption → Option Char
  | exclude => some 'e'
  | outputMode => some 'm'
  | jobs => some 'j'
  | verbose => some 'v'
  | help => some 'h'
  | version => some 'V'
  | extensions | includeSynthetics | oldest | newest | timeout | colours => none

def takesValue : CommandOption → Bool
  | exclude | outputMode | extensions | jobs | oldest | newest | timeout | colours => true
  | includeSynthetics | verbose | help | version => false

/-- The option as messages show it. -/
def text (option : CommandOption) : String :=
  match option.longName?, option.shortName? with
  | some name, _ => "--" ++ name
  | none, some char => "-" ++ char.toString
  | none, none => ""

end CommandOption

/-- Whether output has colours. -/
inductive ColourChoice
  | auto
  | always
  | never
deriving DecidableEq

namespace ColourChoice

def ofName? : String → Option ColourChoice
  | "auto" => some auto
  | "always" => some always
  | "never" => some never
  | _ => none

/-- Without an explicit choice there are colours on every terminal with a name,
except for the one that is called dumb. -/
def isOn (terminal : Option String) : ColourChoice → Bool
  | auto =>
    match terminal with
    | some name => name != "dumb"
    | none => false
  | always => true
  | never => false

end ColourChoice

/-- The reasons arguments make no command line. -/
inductive UsageError
  | unknownOption (text : String)
  | missingValue (option : CommandOption)
  | unexpectedValue (option : CommandOption) (value : String)
  | invalidValue (option : CommandOption) (value : String)
  | repeatedOption (option : CommandOption)
  | emptyPath
  | unexpectedPath (path : String)
  | missingPath
deriving DecidableEq

namespace UsageError

def message : UsageError → String
  | unknownOption text => "unexpected argument '" ++ text ++ "'"
  | missingValue option => "a value is required for '" ++ option.text ++ "'"
  | unexpectedValue option value =>
    "unexpected value '" ++ value ++ "' for '" ++ option.text ++ "'"
  | invalidValue option value => "invalid value '" ++ value ++ "' for '" ++ option.text ++ "'"
  | repeatedOption option => "'" ++ option.text ++ "' cannot be used multiple times"
  | emptyPath => "a path cannot be empty"
  | unexpectedPath path => "unexpected argument '" ++ path ++ "'"
  | missingPath => "two paths are required"

end UsageError

/-- Why nothing is compared. -/
inductive CommandStop
  | usage (error : UsageError)
  | help
  | version
deriving DecidableEq

/-! ## What was asked for -/

/-- What the arguments so far have asked for. -/
structure CommandLine where
  paths : List String
  excludes : List String
  extensions : List String
  mode : Option OutputMode
  includeSynthetics : Bool
  jobs : Option Nat
  oldest : Option UInt16
  newest : Option UInt16
  /-- Comparisons that are computed and not waited for are never too late, so a
  time limit changes nothing. -/
  timeout : Option Nat
  colours : Option ColourChoice
  verbosity : Nat
deriving DecidableEq

namespace CommandLine

/-- Nothing was asked for yet. -/
def empty : CommandLine :=
  { paths := [], excludes := [], extensions := [], mode := none, includeSynthetics := false,
    jobs := none, oldest := none, newest := none, timeout := none, colours := none,
    verbosity := 0 }

/-- How to compare.  Classes can be compared one at a time. -/
def settings (command : CommandLine) : Settings :=
  { includeSynthetics := command.includeSynthetics
    parallelism := command.jobs.getD 1
    supported :=
      ⟨command.oldest.getD VersionRange.everyRelease.oldest,
        command.newest.getD VersionRange.everyRelease.newest⟩ }

/-- How to show the report. -/
def outputMode (command : CommandLine) : OutputMode := command.mode.getD .changes

/-- The least important messages to show. -/
def logLevel (command : CommandLine) : LogLevel :=
  match command.verbosity with
  | 0 => .warn
  | 1 => .info
  | 2 => .debug
  | _ => .trace

end CommandLine

/-! ## Values -/

/-- The number that decimal digits spell. -/
def numberOfDigits? (digits : List Char) : Option Nat :=
  if digits.isEmpty || !digits.all Char.isDigit then none
  else some (digits.foldl (fun number digit => number * 10 + (digit.toNat - '0'.toNat)) 0)

/-- A number below a limit, which may have a plus sign. -/
def readNumber? (limit : Nat) (text : String) : Option Nat :=
  let digits := match text.toList with
    | '+' :: digits => digits
    | digits => digits
  (numberOfDigits? digits).filter (· < limit)

/-- A major version.  It is read as a signed number, so zero may have a minus
sign. -/
def readMajor? (text : String) : Option UInt16 :=
  match text.toList with
  | '-' :: digits =>
    (numberOfDigits? digits).bind fun number => if number = 0 then some 0 else none
  | _ => (readNumber? UInt16.size text).map UInt16.ofNat

namespace CommandLine

/-- A value for something that can be set only once. -/
def setOnce {α : Type} (option : CommandOption) (given : Option α) (value : String)
    (read : String → Option α) : Except CommandStop (Option α) :=
  match read value with
  | none => .error (.usage (.invalidValue option value))
  | some new => if given.isSome then .error (.usage (.repeatedOption option)) else .ok (some new)

/-- Take in an option with its value. -/
def setValue (command : CommandLine) (option : CommandOption) (value : String) :
    Except CommandStop CommandLine :=
  match option with
  | .exclude => .ok { command with excludes := command.excludes ++ [value] }
  | .extensions => .ok { command with extensions := command.extensions ++ value.splitOn "," }
  | .outputMode => do
    let mode ← setOnce option command.mode value OutputMode.ofName?
    return { command with mode }
  | .jobs => do
    let jobs ← setOnce option command.jobs value (readNumber? UInt64.size)
    return { command with jobs }
  | .oldest => do
    let oldest ← setOnce option command.oldest value readMajor?
    return { command with oldest }
  | .newest => do
    let newest ← setOnce option command.newest value readMajor?
    return { command with newest }
  | .timeout => do
    let timeout ← setOnce option command.timeout value (readNumber? UInt64.size)
    return { command with timeout }
  | .colours => do
    let colours ← setOnce option command.colours value ColourChoice.ofName?
    return { command with colours }
  | .includeSynthetics | .verbose | .help | .version =>
    .error (.usage (.unexpectedValue option value))

/-- Take in an option that has no value. -/
def setFlag (command : CommandLine) (option : CommandOption) : Except CommandStop CommandLine :=
  match option with
  | .includeSynthetics =>
    if command.includeSynthetics then .error (.usage (.repeatedOption option))
    else .ok { command with includeSynthetics := true }
  | .verbose => .ok { command with verbosity := command.verbosity + 1 }
  | .help => .error .help
  | .version => .error .version
  | .exclude | .outputMode | .extensions | .jobs | .oldest | .newest | .timeout | .colours =>
    .error (.usage (.missingValue option))

/-- Take in a path. -/
def addPath (command : CommandLine) (path : String) : Except CommandStop CommandLine :=
  if 2 ≤ command.paths.length then .error (.usage (.unexpectedPath path))
  else if path.isEmpty then .error (.usage .emptyPath)
  else .ok { command with paths := command.paths ++ [path] }

end CommandLine

/-! ## Arguments -/

/-- What arguments have come to. -/
structure ArgumentState where
  command : CommandLine
  /-- An option whose value is the next argument. -/
  pending : Option CommandOption
  /-- Two dashes came before. -/
  onlyPaths : Bool

namespace ArgumentState

def start : ArgumentState := ⟨.empty, none, false⟩

/-- Take in short names that share a dash.  The first one with a value has the
rest of the argument for it, or else the next argument. -/
def shortNames (state : ArgumentState) : List Char → Except CommandStop ArgumentState
  | [] => .ok state
  | char :: rest =>
    match CommandOption.all.find? fun option => option.shortName? = some char with
    | none => .error (.usage (.unknownOption ("-" ++ char.toString)))
    | some option =>
      if option.takesValue then do
        match rest with
        | [] => return { state with pending := some option }
        | '=' :: value =>
          return { state with command := ← state.command.setValue option (String.ofList value) }
        | value =>
          return { state with command := ← state.command.setValue option (String.ofList value) }
      else
        match state.command.setFlag option with
        | .ok command => shortNames { state with command } rest
        | .error stop => .error stop

/-- Take in a long name, perhaps with a value behind an equals sign. -/
def longName (state : ArgumentState) (text : List Char) : Except CommandStop ArgumentState := do
  let (name, assigned) := text.span (· != '=')
  let name := String.ofList name
  match CommandOption.all.find? fun option => option.longName? = some name with
  | none => throw (.usage (.unknownOption ("--" ++ name)))
  | some option =>
    match assigned with
    | _ :: value =>
      return { state with command := ← state.command.setValue option (String.ofList value) }
    | [] =>
      if option.takesValue then return { state with pending := some option }
      else return { state with command := ← state.command.setFlag option }

/-- Nothing may come before the value of an option. -/
def noPending (state : ArgumentState) : Except CommandStop Unit :=
  match state.pending with
  | some option => .error (.usage (.missingValue option))
  | none => .ok ()

/-- Take in the next argument. -/
def step (state : ArgumentState) (argument : String) : Except CommandStop ArgumentState := do
  if state.onlyPaths then
    return { state with command := ← state.command.addPath argument }
  else
    match argument.toList with
    | ['-', '-'] =>
      state.noPending
      return { state with onlyPaths := true }
    | '-' :: '-' :: text =>
      state.noPending
      state.longName text
    | '-' :: char :: rest =>
      state.noPending
      state.shortNames (char :: rest)
    | _ =>
      match state.pending with
      | some option =>
        return { state with command := ← state.command.setValue option argument, pending := none }
      | none => return { state with command := ← state.command.addPath argument }

end ArgumentState

/-- A complete command line: two paths, and how to compare what is there. -/
structure Request where
  old : String
  new : String
  command : CommandLine
deriving DecidableEq

namespace CommandLine

/-- What the arguments ask for. -/
def parse (arguments : List String) : Except CommandStop Request := do
  let state ← arguments.foldlM ArgumentState.step .start
  state.noPending
  match state.command.paths with
  | [old, new] => return ⟨old, new, state.command⟩
  | _ => throw (.usage .missingPath)

end CommandLine

end ClassDelta
