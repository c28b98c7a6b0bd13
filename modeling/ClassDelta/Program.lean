import ClassDelta.CommandLine
import ClassDelta.Comparison.Sources

/-!
# The program

`Program.run` is everything between the arguments of the program and what it
prints: it reads the command line, looks up two paths, compares what is there
and renders the report.  How paths are looked up is up to the caller.
-/

namespace ClassDelta

/-- The reasons a comparison cannot even start or has to be given up. -/
inductive RunError
  | settings (defect : SettingsDefect)
  | archive (error : ArchiveError)
deriving DecidableEq

namespace RunError

def message : RunError → String
  | settings defect => defect.message
  | archive error => error.message

end RunError

/-- What a run of the program leaves behind. -/
structure RunResult where
  exitCode : Nat
  output : String
  /-- Messages of the chosen level and of more important ones. -/
  events : List LogEvent
  /-- What is wrong with the command line. -/
  complaint : Option String
deriving DecidableEq

namespace Request

/-- The entries to look at. -/
def filter (request : Request) : Except ArchiveError EntryFilter :=
  match EntryFilter.classFiles.excludeAll request.command.excludes with
  | .ok filter => .ok (filter.withExtensions request.command.extensions)
  | .error error => .error (.exclude error)

/-- Open what was found at a path. -/
def openSource (path : String) (found : Option FileTree) : Journaled ArchiveError ClassSource := do
  Journaled.tell [⟨.info, "Opening '" ++ path ++ "'"⟩]
  Journaled.ofExcept (ClassSource.ofPath path found)

/-- Compare what was found at the two paths. -/
def report (request : Request) (old new : Option FileTree) : Journaled RunError Report := do
  let settings := request.command.settings
  let filter ← Journaled.ofExcept (request.filter.mapError .archive)
  Journaled.ofExcept (settings.check.mapError .settings)
  Journaled.mapError .archive do
    let old ← openSource request.old old
    let new ← openSource request.new new
    Comparison.ofSources settings filter old new

/-- The result of comparing what was found at the two paths. -/
def run (request : Request) (terminal : Option String) (old new : Option FileTree) :
    RunResult :=
  let command := request.command
  let colours := (command.colours.getD .auto).isOn terminal
  let shown (events : List LogEvent) := events.filter (LogEvent.isShownAt command.logLevel)
  match (request.report old new).outcome with
  | (.ok report, events) =>
    ⟨report.exitCode, report.render command.outputMode colours, shown events, none⟩
  | (.error error, events) => ⟨2, "", shown (events ++ [⟨.error, error.message⟩]), none⟩

end Request

namespace Program

def name : String := "jardiff"

def version : String := "0.1.0"

/-- The options in a list, as the help shows them. -/
def optionLines : List (String × String) := [
  ("-e, --exclude <GLOB>",
    "Skip entries whose path matches this pattern (eg. `META-INF/**`)"),
  ("-m, --output-mode <MODE>",
    "How to print the differences [default: changes] " ++
      "[possible values: status, changes, stat, json]"),
  ("    --class-exts <EXTENSIONS>",
    "Other file extensions to treat as class files (`.class` always wins)"),
  ("    --include-synthetics", "Also report compiler generated members and bridge methods"),
  ("-j, --jobs <N>", "Number of classes to compare at the same time"),
  ("    --min-major <VERSION>", "Oldest class file major version to read"),
  ("    --max-major <VERSION>", "Newest class file major version to read"),
  ("    --timeout-ms <MILLISECONDS>",
    "Give up on comparisons that have not finished after this long"),
  ("    --color <WHEN>",
    "When to color the output [default: auto] [possible values: auto, always, never]"),
  ("-v", "Log more (repeat for even more)"),
  ("-h, --help", "Print help"),
  ("-V, --version", "Print version")]

/-- A line of a list, with the explanation in a column of its own. -/
def helpLine (width : Nat) (line : String × String) : String :=
  "  " ++ line.1 ++ String.ofList (List.replicate (width - line.1.length) ' ') ++ "  " ++ line.2 ++
    "\n"

/-- How the program is used. -/
def usage : String := "Usage: " ++ name ++ " [OPTIONS] <LEFT> <RIGHT>\n"

/-- What the program does and how. -/
def help : String :=
  "Compares the classes in two JARs (or class directories) and reports API changes\n\n" ++
    usage ++ "\nArguments:\n" ++
    helpLine 7 ("<LEFT>", "Old version: a JAR file or a directory of class files") ++
    helpLine 7 ("<RIGHT>", "New version: a JAR file or a directory of class files") ++
    "\nOptions:\n" ++ String.join (optionLines.map (helpLine 29))

/-- The result when nothing is compared. -/
def stopped : CommandStop → RunResult
  | .usage error => ⟨2, "", [], some ("error: " ++ error.message ++ "\n\n" ++ usage)⟩
  | .help => ⟨0, help, [], none⟩
  | .version => ⟨0, name ++ " " ++ version ++ "\n", [], none⟩

/-- Run the program. -/
def run {m : Type → Type} [Monad m] (find : String → m (Option FileTree))
    (terminal : Option String) (arguments : List String) : m RunResult :=
  match CommandLine.parse arguments with
  | .error stop => pure (stopped stop)
  | .ok request => do
    let old ← find request.old
    let new ← find request.new
    return request.run terminal old new

end Program

end ClassDelta
