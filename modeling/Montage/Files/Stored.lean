import Montage.Config.Format
import Montage.Files.Access
import Montage.Plan.Format

/-!
# Plans and settings in files

A plan that is read from a file has footage, and settings that are read from a
file make sense; anything else is refused with the reason.  Both are written
with a line for every item, and the directory of the file is made if it is
missing.
-/

namespace Montage

variable {m : Type → Type} [Monad m] [FileSystem m]

/-- The same action with its faults told in other words. -/
def tellingOf {ε ε' β : Type} (tell : ε → ε') (action : ExceptT ε m β) : ExceptT ε' m β :=
  ExceptT.mk do
    match ← action.run with
    | .ok b => return .ok b
    | .error fault => return .error (tell fault)

/-- The directory in which a path lies, unless it is where all paths start. -/
def directoryOf? (path : String) : Option String :=
  (Path.parent? path).filter fun directory => !directory.isEmpty

/-- Makes the directory in which a path lies. -/
def makeRoomFor (path : String) : ExceptT FileFault m Unit :=
  match directoryOf? path with
  | some directory => FileSystem.makeDirectories directory
  | none => pure ()

/-! ## Plans -/

namespace Plan

/-- Reads the plan in a file. -/
def load (path : String) : ExceptT PlanFileProblem m (Plan Float) := do
  let text ← tellingOf (PlanFileProblem.file path) (FileSystem.readText path)
  match Plan.parse text with
  | .error fault => throw (.parse path fault)
  | .ok plan => if plan.clips.isEmpty then throw (.noClips path) else return plan

/-- Writes a plan to a file. -/
def save (plan : Plan Float) (path : String) : ExceptT PlanFileProblem m Unit := do
  match directoryOf? path with
  | some directory =>
    tellingOf (PlanFileProblem.file directory) (FileSystem.makeDirectories directory)
  | none => pure ()
  tellingOf (PlanFileProblem.file path) (FileSystem.writeText path plan.toJson.pretty)

end Plan

/-! ## Settings -/

/-- What the surroundings say about where settings are kept. -/
structure Environment where
  /-- The directory of all settings of the user. -/
  configHome : Option String
  /-- The home directory. -/
  home : Option String

/-- The file of the settings when no other is named. -/
def Environment.configFile (environment : Environment) : String :=
  let base := environment.configHome.getD (Path.join (environment.home.getD "/tmp") ".config")
  Path.join (Path.join base "reelcraft") "config.json"

namespace Config

/-- Reads the settings in a file. -/
def load (path : String) : ExceptT Problem m (Config Float) := do
  unless ← FileSystem.isPresent path do
    throw (.fileNotFound path)
  let text ← tellingOf Problem.file (FileSystem.readText path)
  match Config.parse text with
  | .error fault => throw (.json fault)
  | .ok config =>
    match config.compiler.validate with
    | .error fault => throw fault.problem
    | .ok _ => return config

/-- The settings in the usual file; the standard ones if it cannot be used. -/
def loadUsual (environment : Environment) : m (Config Float) := do
  match ← (load environment.configFile).run with
  | .ok config => return config
  | .error _ => return .standard

/-- Writes settings to a file. -/
def save (config : Config Float) (path : String) : ExceptT FileFault m Unit := do
  makeRoomFor path
  FileSystem.writeText path config.toJson.pretty

end Config

end Montage
