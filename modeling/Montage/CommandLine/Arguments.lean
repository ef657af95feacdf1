import Montage.Compiler

/-!
# What the command line asks for

The arguments name a command, and options stand before or behind it.  They are
taken from left to right, and the first that makes no sense decides.

An option with a value takes it from behind `=`, or, in its short form, from
the rest of the argument, or from the next argument, which must not begin with
a dash then.  Short switches can be drawn together.  Nothing may be given twice
on one side of the command.  Behind `--` everything is a name.
-/

namespace Montage

namespace CommandLine

/-- Switches are given or not. -/
inductive Switch
  | verbose
  | init
  | version
  | help
  deriving DecidableEq

/-- Settings have a value. -/
inductive Setting
  | config
  | backend
  | mode
  | platform
  | fps
  | output
  deriving DecidableEq

/-- An option. -/
inductive Item
  | switch (which : Switch)
  | setting (which : Setting)

/-- How an option is spelled: with two dashes, and with one. -/
structure Spelling where
  long : String
  short : Option Char
  item : Item

/-- A whole number with an optional sign, of at most 32 bits. -/
def parseCount? (text : String) : Option Nat :=
  let (negative, digits) := match text.toList with
    | '-' :: rest => (true, rest)
    | '+' :: rest => (false, rest)
    | rest => (false, rest)
  let value := Json.digitsValue digits
  if digits.isEmpty || !digits.all Char.isDigit then none
  else if negative && decide (0 < value) then none
  else if value < UInt32.size then some value
  else none

/-- Whether a text can be the value of a setting.  Paths are not empty. -/
def Setting.accepts (which : Setting) (value : String) : Bool :=
  match which with
  | .config | .output => !value.isEmpty
  | .backend => (Backend.parse? value).isSome
  | .fps => (parseCount? value).isSome
  | .mode | .platform => true

/-- What has been given so far. -/
structure Given where
  switches : List Switch
  settings : List (Setting × String)
  /-- In reverse. -/
  names : List String

def Given.none : Given := ⟨[], [], []⟩

/-- The value of a setting. -/
def Given.value? (given : Given) (which : Setting) : Option String :=
  given.settings.lookup which

/-- Why the arguments are not carried out as a command. -/
inductive Stop
  /-- They make no sense. -/
  | misuse
  /-- They ask for the version. -/
  | version
  /-- They ask for help. -/
  | help
  deriving DecidableEq

/-- One more switch. -/
def Given.addSwitch (given : Given) (which : Switch) : Except Stop Given :=
  match which with
  | .version => .error .version
  | .help => .error .help
  | _ =>
    if given.switches.contains which then .error .misuse
    else .ok { given with switches := which :: given.switches }

/-- One more setting. -/
def Given.addSetting (given : Given) (which : Setting) (value : String) : Except Stop Given :=
  if !which.accepts value || (given.value? which).isSome then .error .misuse
  else .ok { given with settings := (which, value) :: given.settings }

/-- What an argument means at its place. -/
inductive Step
  /-- It is complete. -/
  | done (given : Given)
  /-- The next argument is the value of a setting. -/
  | awaits (given : Given) (which : Setting)

/-- An argument with two dashes, without them. -/
def longOption (spellings : List Spelling) (given : Given) (body : List Char) :
    Except Stop Step := do
  let name := String.ofList (body.takeWhile (· ≠ '='))
  let value := match body.dropWhile (· ≠ '=') with
    | [] => none
    | _ :: value => some (String.ofList value)
  match spellings.find? (·.long == name), value with
  | some ⟨_, _, .switch which⟩, none => return .done (← given.addSwitch which)
  | some ⟨_, _, .setting which⟩, some value => return .done (← given.addSetting which value)
  | some ⟨_, _, .setting which⟩, none => return .awaits given which
  | _, _ => throw .misuse

/-- An argument with one dash, without it. -/
def shortOptions (spellings : List Spelling) (given : Given) :
    List Char → Except Stop Step
  | [] => return .done given
  | c :: rest =>
    match spellings.find? (·.short == some c) with
    | some ⟨_, _, .switch which⟩ => do
      shortOptions spellings (← given.addSwitch which) rest
    | some ⟨_, _, .setting which⟩ =>
      match rest with
      | [] => return .awaits given which
      | '=' :: value => return .done (← given.addSetting which (String.ofList value))
      | value => return .done (← given.addSetting which (String.ofList value))
    | none => throw .misuse

/-- Whether an argument is read as options. -/
def isOption (argument : String) : Bool :=
  match argument.toList with
  | '-' :: _ :: _ => true
  | _ => false

/-- One more name, where `room` names are welcome.  Names are paths and not
empty. -/
def Given.addName (room : Nat) (given : Given) (name : String) : Except Stop Given :=
  if name.isEmpty || decide (room ≤ given.names.length) then .error .misuse
  else .ok { given with names := name :: given.names }

/-- Takes arguments from left to right, and at most `room` names among them.
Without `room` the first name ends the taking, and the rest is returned with
it. -/
def take (spellings : List Spelling) (room : Option Nat) (given : Given) :
    List String → Except Stop (Given × List String)
  | [] => return (given, [])
  | argument :: rest =>
    match argument.toList, room with
    | ['-', '-'], none => throw .misuse
    | ['-', '-'], some count => return (← rest.foldlM (Given.addName count) given, [])
    | '-' :: c :: body, _ => do
      let step ← if c = '-' then longOption spellings given body
        else shortOptions spellings given (c :: body)
      match step with
      | .done next => take spellings room next rest
      | .awaits next which =>
        match rest with
        | [] => throw .misuse
        | value :: rest =>
          if isOption value then throw .misuse
          else take spellings room (← next.addSetting which value) rest
    | _, none => return (given, argument :: rest)
    | _, some count => do take spellings room (← given.addName count argument) rest

/-! ## Commands -/

/-- What the program is to do. -/
inductive Command
  | compile (plan : String) (backend : Backend) (mode platform : Option String)
    (fps : Option Nat) (output : Option String)
  | validate (plan : String)
  | info (plan : String)
  | profiles
  | config (init : Bool)

/-- A command and what goes with every command. -/
structure Request where
  verbose : Bool
  /-- The file of the settings, if one is named. -/
  config : Option String
  command : Command

/-- The options that every command takes. -/
def commonSpellings : List Spelling :=
  [⟨"verbose", some 'v', .switch .verbose⟩, ⟨"config", none, .setting .config⟩,
    ⟨"help", some 'h', .switch .help⟩]

/-- The options before the command. -/
def outerSpellings : List Spelling :=
  ⟨"version", some 'V', .switch .version⟩ :: commonSpellings

/-- The options of a command, and the number of names it takes. -/
def spellingsOf (word : String) : Option (List Spelling × Nat) :=
  match word with
  | "compile" => some (commonSpellings ++ [
      ⟨"backend", some 'b', .setting .backend⟩, ⟨"mode", none, .setting .mode⟩,
      ⟨"platform", none, .setting .platform⟩, ⟨"fps", none, .setting .fps⟩,
      ⟨"output", some 'o', .setting .output⟩], 1)
  | "validate" | "info" => some (commonSpellings, 1)
  | "profiles" => some (commonSpellings, 0)
  | "config" => some (commonSpellings ++ [⟨"init", none, .switch .init⟩], 0)
  | _ => none

/-- The command that a word and what is given behind it ask for. -/
def commandOf (word : String) (given : Given) : Option Command :=
  match word, given.names with
  | "compile", [plan] =>
    some (.compile plan
      (((given.value? .backend).bind Backend.parse?).getD .seconds)
      (given.value? .mode) (given.value? .platform)
      ((given.value? .fps).bind parseCount?) (given.value? .output))
  | "validate", [plan] => some (.validate plan)
  | "info", [plan] => some (.info plan)
  | "profiles", [] => some .profiles
  | "config", [] => some (.config (given.switches.contains .init))
  | _, _ => none

/-- What comes of asking for help on topics.  Nothing has parts that could be a
second topic, so there is at most one, a command or `help` itself. -/
def helpOn (topics : List String) : Stop :=
  match topics with
  | [] => .help
  | [topic] => if topic == "help" || (spellingsOf topic).isSome then .help else .misuse
  | _ => .misuse

/-- What the arguments ask for.  Of two files of settings the one behind the
command counts. -/
def parse (arguments : List String) : Except Stop Request := do
  let (outer, rest) ← take outerSpellings none .none arguments
  match rest with
  | [] => throw .misuse
  | "help" :: topics => throw (helpOn topics)
  | word :: rest =>
    match spellingsOf word with
    | none => throw .misuse
    | some (spellings, room) =>
      let (inner, _) ← take spellings (some room) .none rest
      match commandOf word inner with
      | none => throw .misuse
      | some command =>
        return {
          verbose := outer.switches.contains .verbose || inner.switches.contains .verbose
          config := (inner.value? .config).or (outer.value? .config)
          command }

end CommandLine

end Montage
