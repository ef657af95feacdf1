import Montage.CommandLine.Arguments
import Montage.CommandLine.Event
import Montage.CommandLine.Report
import Montage.Files.Stored

/-!
# Running a command

`run` carries out what the arguments ask for and returns what is printed and
how the program ends.  It reads and writes files through `FileSystem`, so it
can be run on a disk or on a tree that is a value.

Settings are read first, then the plan, and but for the log nothing is written
before both are known to make sense.

What is told along the way goes to the log, behind all that the log holds, or
beside the output if there is no log.  Nothing is told before the log is opened:
that the usual settings cannot be used goes unsaid.

Some texts are left out.  The words of events, their times of day and the filter
that picks among them are a parameter, `Reports`, and `run` takes no words at all.
A JSON fault is told without its line and column, as `Problem` says.  And `usage` is
a summary: for arguments that make no sense it does not say what is wrong with them.
-/

namespace Montage

namespace CommandLine

/-- Why a command fails. -/
inductive Failure
  /-- The file of the plan cannot be used. -/
  | unusable (cause : PlanFileProblem)
  /-- Something else is refused. -/
  | refused (cause : Problem)

def Failure.message : Failure → String
  | .unusable cause => "Failed to load plan: " ++ cause.message
  | .refused cause => cause.message

/-- How a run ends. -/
inductive Ending
  | success
  /-- The arguments make no sense. -/
  | misuse
  | failure (cause : Failure)

/-- What a run leaves behind, files apart. -/
structure Outcome where
  output : String
  /-- What it says beside its output before it ends. -/
  notices : String
  ending : Ending

namespace Outcome

/-- A run that prints `output` and succeeds. -/
def success (output : String) : Outcome := ⟨output, "", .success⟩

/-- A run that prints `output` and then fails. -/
def failing (output : String) (cause : Failure) : Outcome := ⟨output, "", .failure cause⟩

/-- The number that tells other programs how the run has ended. -/
def exitCode (outcome : Outcome) : Nat :=
  match outcome.ending with
  | .success => 0
  | .failure _ => 1
  | .misuse => 2

/-- The same outcome, with something said before it. -/
def after (outcome : Outcome) (notice : String) : Outcome :=
  { outcome with notices := notice ++ outcome.notices }

/-- All that is said beside the output; a failure has the last word. -/
def errors (outcome : Outcome) : String :=
  match outcome.ending with
  | .failure cause => outcome.notices ++ unlines ["Error: " ++ cause.message]
  | _ => outcome.notices

end Outcome

variable {m : Type → Type} [Monad m] [FileSystem m]

/-! ## The log -/

/-- Where events are told, and in which words. -/
structure Journal where
  /-- The file that is open for them; without one they are told beside the output. -/
  file : Option String
  words : List Event → String

/-- Tells events; what is said of them beside the output.  It does not matter whether the
file can take them. -/
def Journal.tell (journal : Journal) (events : List Event) : m String := do
  let text := journal.words events
  match journal.file with
  | none => return text
  | some path =>
    unless text.isEmpty do
      let _ ← FileSystem.append path text.toUTF8
    return ""

/-- Opens the file for events, and what is said if that fails; then there is no such file. -/
def openLog (reports : Reports) (logging : LoggingConfig) : m (Journal × String) := do
  match logging.file with
  | none => return (⟨none, reports logging⟩, "")
  | some path =>
    match ← FileSystem.touch path with
    | .ok _ => return (⟨some path, reports logging⟩, "")
    | .error fault =>
      return (⟨none, reports logging⟩,
        unlines ["Failed to open log file " ++ path ++ ": " ++ fault.message])

/-! ## Plans -/

/-- What there is to find out about a plan, and what is told meanwhile. -/
structure Finding where
  told : List Event
  result : Except Failure (Compiler Float × Layout Float)

/-- Computes the layout of a plan with given settings.  Keys are looked at before the
footage, so they are told of even if there is no layout. -/
def examine (config : CompilerConfig Float) (plan : Plan Float) (mode platform : String) :
    Finding :=
  match Compiler.new config with
  | .error fault => ⟨[], .error (.refused fault.problem)⟩
  | .ok compiler =>
    match compiler.layoutAs plan mode platform with
    | .error fault => ⟨keyEvents mode platform, .error (.refused fault.problem)⟩
    | .ok layout => ⟨layoutEvents mode platform layout, .ok (compiler, layout)⟩

/-- Reads a plan and computes its layout with given settings. -/
def prepare (config : CompilerConfig Float) (path : String) (mode platform : Option String) :
    m Finding := do
  match ← (Plan.load path).run with
  | .error cause => return ⟨[], .error (.unusable cause)⟩
  | .ok plan => return examine config plan (mode.getD plan.mode) (platform.getD plan.platform)

/-- Writes a payload to a file. -/
def deliver (path text : String) : ExceptT Failure m Unit :=
  tellingOf (fun fault => .refused (.file fault)) do
    makeRoomFor path
    FileSystem.writeText path text

/-- Compiles the plan in a file. -/
def compile (config : CompilerConfig Float) (journal : Journal) (path : String)
    (backend : Backend) (mode platform output : Option String) : m Outcome := do
  let finding ← prepare config path mode platform
  match finding.result with
  | .error failure =>
    let told ← journal.tell finding.told
    return (Outcome.failing "" failure).after told
  | .ok (compiler, layout) =>
    let told ← journal.tell (finding.told ++ layout.warnings.map .normalized)
    let text := compiler.textOf layout backend
    match output with
    | none => return (Outcome.success (unlines [text])).after told
    | some target =>
      match ← (deliver target text).run with
      | .error failure => return (Outcome.failing "" failure).after told
      | .ok _ =>
        let last ← journal.tell [.wrote target backend]
        return ⟨"", told ++ (last ++ unlines [written path target layout]), .success⟩

/-- Checks the plan in a file. -/
def validate (config : CompilerConfig Float) (journal : Journal) (path : String) :
    m Outcome := do
  let opening := unlines ["Validating plan at: " ++ path]
  let finding ← prepare config path none none
  let told ← journal.tell finding.told
  match finding.result with
  | .error failure => return (Outcome.failing opening failure).after told
  | .ok (_, layout) =>
    return (Outcome.success (opening ++ unlines (validation layout))).after told

/-- Describes the layout of the plan in a file. -/
def info (config : CompilerConfig Float) (journal : Journal) (path : String) : m Outcome := do
  let finding ← prepare config path none none
  let told ← journal.tell finding.told
  match finding.result with
  | .error failure => return (Outcome.failing "" failure).after told
  | .ok (compiler, layout) =>
    return (Outcome.success (unlines (information path compiler.clock layout))).after told

/-! ## Settings -/

/-- Shows the settings, or writes them to their file. -/
def showConfig (config : Config Float) (path : String) (init : Bool) : m Outcome := do
  if init then
    match ← (config.save path).run with
    | .error fault => return .failing "" (.refused (.file fault))
    | .ok _ => return .success (unlines ["Wrote config to: " ++ path])
  else return .success (unlines ["# " ++ path, config.toJson.pretty])

/-- Carries out a command with given settings. -/
def perform (environment : Environment) (config : Config Float) (journal : Journal)
    (request : Request) : m Outcome :=
  match request.command with
  | .compile plan backend mode platform fps output =>
    let settings := match fps with
      | some fps => config.compiler.withFps fps
      | none => config.compiler
    compile settings journal plan backend mode platform output
  | .validate plan => validate config.compiler journal plan
  | .info plan => info config.compiler journal plan
  | .profiles => return .success (unlines tables)
  | .config init =>
    showConfig config (request.config.getD environment.configFile) init

/-- The settings for a request.  When settings are to be written, the file that
is named for them need not exist. -/
def settingsFor (environment : Environment) (request : Request) :
    ExceptT Problem m (Config Float) := do
  match request.config with
  | none => Config.loadUsual environment
  | some path =>
    let initializing := match request.command with
      | .config init => init
      | _ => false
    if initializing && !(← FileSystem.isPresent path) then return .standard
    else Config.load path

/-- How a run that may be verbose is reported on. -/
def loggingFor (verbose : Bool) (logging : LoggingConfig) : LoggingConfig :=
  if verbose then { logging with level := "debug" } else logging

/-- Carries out a request. -/
def serve (reports : Reports) (environment : Environment) (request : Request) : m Outcome := do
  match ← (settingsFor environment request).run with
  | .error problem => return .failing "" (.refused problem)
  | .ok config =>
    let (journal, notice) ← openLog reports (loggingFor request.verbose config.logging)
    let outcome ← perform environment config journal request
    return outcome.after notice

/-- How the program is called. -/
def usage : List String :=
  ["Usage: reelcraft [-v] [--config FILE] COMMAND",
    "",
    "Commands:",
    "  compile PLAN [-b BACKEND] [--mode MODE] [--platform PLATFORM] [--fps FPS] [-o FILE]",
    "  validate PLAN",
    "  info PLAN",
    "  profiles",
    "  config [--init]"]

/-- Carries out what the arguments ask for, with words for the events. -/
def runReporting (reports : Reports) (environment : Environment) (arguments : List String) :
    m Outcome :=
  match parse arguments with
  | .error .misuse =>
    return ⟨"", unlines ("error: the arguments make no sense" :: "" :: usage), .misuse⟩
  | .error .version => return .success (unlines ["reelcraft 0.1.0"])
  | .error .help => return .success (unlines usage)
  | .ok request => serve reports environment request

/-- Carries out what the arguments ask for, and tells no events. -/
def run (environment : Environment) (arguments : List String) : m Outcome :=
  runReporting .silent environment arguments

end CommandLine

end Montage
