import Montage.Json.Fault
import Montage.Layout

/-!
# What people are told

Every way of failing is a cause of its own.  `Problem` gathers the causes that
reach the user into kinds, each with the text that goes with it, and
`Problem.message` is the wording.

One thing is left out of it: where in its text a JSON fault was met.  Its line and
its column, which would follow behind ` at line `, are not in `Json.Fault`, so no
message has them.
-/

namespace Montage

/-! ## The wording of causes -/

def ClipFault.message : ClipFault Float → String
  | .badTrim value =>
    "trim start must be a non-negative number of seconds (got " ++ Decimal.plain value ++ ")"
  | .badLength value =>
    "length must be a positive number of seconds (got " ++ Decimal.plain value ++ ")"
  | .tooShort length minimum overlap =>
    "length " ++ Decimal.fixed 2 length ++ "s is below the minimum " ++ Decimal.fixed 2 minimum
      ++ "s (2 x transition " ++ Decimal.fixed 2 overlap ++ "s + 1s of clear footage)"

/-- The clip to which a fault belongs. -/
def PlanFault.clipIndex? : PlanFault Float → Option Nat
  | .noClips => none
  | .clip index _ => some index

def PlanFault.message : PlanFault Float → String
  | .noClips => "plan has no clips"
  | .clip _ fault => fault.message

/-- The name of a setting in the file of settings. -/
def Margin.name : Margin → String
  | .overlayLookback => "overlay_lookback_secs"
  | .minOverlay => "min_overlay_secs"
  | .backgroundTail => "background_tail_secs"

/-- The name of a setting in the file of settings. -/
def Level.name : Level → String
  | .duckedClipVolume => "ducked_clip_volume"
  | .textMusicDuck => "text_music_duck"

def ConfigFault.message : ConfigFault Float → String
  | .frameRateZero => "fps must be > 0"
  | .margin which value =>
    which.name ++ " must be a finite, non-negative number of seconds (got "
      ++ Decimal.plain value ++ ")"
  | .level which value =>
    which.name ++ " must be within [0.0, 1.0] (got " ++ Decimal.plain value ++ ")"

/-- The wording for a word that names no payload, in folded form. -/
def unknownBackendMessage (word : String) : String :=
  "unknown backend '" ++ word ++ "' (expected seconds or frames)"

/-! ## Files -/

/-- Why a file cannot be read or written. -/
inductive FileFault
  | notFound
  | alreadyExists
  | notADirectory
  | isADirectory
  | nameTooLong
  | permissionDenied
  /-- The name holds a character that no file name can hold. -/
  | impossibleName
  /-- The content is not UTF-8. -/
  | notText
  | other (code : Nat) (message : String)
  deriving DecidableEq

/-- A message of the operating system with its number. -/
def osMessage (message : String) (code : Nat) : String :=
  message ++ " (os error " ++ toString code ++ ")"

def FileFault.message : FileFault → String
  | .notFound => osMessage "No such file or directory" 2
  | .permissionDenied => osMessage "Permission denied" 13
  | .alreadyExists => osMessage "File exists" 17
  | .notADirectory => osMessage "Not a directory" 20
  | .isADirectory => osMessage "Is a directory" 21
  | .nameTooLong => osMessage "File name too long" 36
  | .impossibleName => "file name contained an unexpected NUL byte"
  | .notText => "stream did not contain valid UTF-8"
  | .other code message => osMessage message code

/-! ## Kinds of problems -/

/-- A failure as the user sees it. -/
inductive Problem
  /-- The plan, or one of its clips, is refused. -/
  | invalidPlan (clip : Option Nat) (detail : String)
  | config (detail : String)
  | fileNotFound (path : String)
  | file (fault : FileFault)
  | json (fault : Json.Fault)

/-- The wording, but for the line and the column of a JSON fault. -/
def Problem.message : Problem → String
  | .invalidPlan none detail => "Invalid plan: " ++ detail
  | .invalidPlan (some index) detail => "Invalid plan (clip " ++ toString index ++ "): " ++ detail
  | .config detail => "Configuration error: " ++ detail
  | .fileNotFound path => "File not found: " ++ path
  | .file fault => fault.message
  | .json fault => fault.message

def PlanFault.problem (fault : PlanFault Float) : Problem :=
  .invalidPlan fault.clipIndex? fault.message

def ConfigFault.problem (fault : ConfigFault Float) : Problem := .config fault.message

def LayoutFault.problem : LayoutFault Float → Problem
  | .config fault => fault.problem
  | .plan fault => fault.problem

/-- A failure to read or write the file of a plan. -/
inductive PlanFileProblem
  | file (path : String) (fault : FileFault)
  | parse (path : String) (fault : Json.Fault)
  /-- The plan in the file has no footage. -/
  | noClips (path : String)

/-- The wording with the path of the file, but without the line and the column of a JSON
fault. -/
def PlanFileProblem.message : PlanFileProblem → String
  | .file path fault => "I/O error at " ++ path ++ ": " ++ fault.message
  | .parse path fault => "Parse error in " ++ path ++ ": " ++ fault.message
  | .noClips path => "Invalid plan file: " ++ path ++ " contains no clips"

end Montage
