import Montage.Proofs.CommandLine.Runs
import Montage.Proofs.Standing

/-!
# What a run leaves behind

Commands that look at a plan leave the files as they are, but for the log: it is made when
it is missing, and what is told stands behind what it held (`Scene.unchanged_told`).  So does
a command that is to write a payload and finds nothing to write; and what it writes when it
does find something is what it would have printed (`Scene.read_of_delivery`).

What is told has no part in how a run ends: two runs on the same files end alike in whatever
words events are told (`Scene.ending_of_inspects`).

`Scene.commands_agree` is the statement about calls of the program.
-/

namespace Montage

namespace Tree

/-- Files that are as they were before, but for the file of the log: it may have been made,
and something may have been added behind what it held. -/
structure Unchanged (log : Option String) (before after : Tree) : Prop where
  start : after.start = before.start
  entry : ∀ place, after.entry? place = before.entry? place ∨
    ∃ path found added, log = some path ∧ before.openFile path = .ok (place, found) ∧
      after.entry? place = some (.file (found.getD ByteArray.empty ++ added))

theorem Unchanged.refl (log : Option String) (tree : Tree) : Unchanged log tree tree :=
  ⟨rfl, fun _ => .inl rfl⟩

/-- A log to which something has been added is the only file that has changed. -/
theorem unchanged_put {tree : Tree} {path : String} {place : List String}
    {found : Option ByteArray} (h : tree.openFile path = .ok (place, found)) (added : ByteArray) :
    Unchanged (some path) tree
      (tree.put place (.file (found.getD ByteArray.empty ++ added))) := by
  obtain ⟨opens⟩ := opens_of_openFile h
  refine ⟨rfl, fun other => ?_⟩
  by_cases hother : other = place
  · subst hother
    exact .inr ⟨path, found, added, rfl, h, tree.entry?_put_self opens.place_ne_nil _⟩
  · exact .inl (tree.entry?_put_of_ne hother _)

section

variable {tree opened after : Tree} {path : String} {added : ByteArray}

/-- A log that is there stays as it is when it is opened, and one that is missing is made. -/
theorem unchanged_of_touch (h : tree.touch path = .ok opened) :
    Unchanged (some path) tree opened := by
  obtain ⟨place, found, hopen, ⟨content, -, rfl⟩ | ⟨rfl, rfl⟩⟩ := exists_of_touch h
  · exact .refl _ opened
  · exact unchanged_put hopen ByteArray.empty

/-- What is told once the log is open stands behind what it held at first. -/
theorem unchanged_of_append (htouch : tree.touch path = .ok opened)
    (h : opened.append path added = .ok after) : Unchanged (some path) tree after := by
  obtain ⟨place, found, hopen, hopened⟩ := exists_of_touch htouch
  obtain ⟨again, held, hagain, rfl⟩ := exists_of_append h
  rcases hopened with ⟨content, rfl, rfl⟩ | ⟨rfl, rfl⟩
  · rw [hopen] at hagain
    cases hagain
    exact unchanged_put hopen added
  · -- the file that has been made is found again, and it is empty
    obtain ⟨opens⟩ := opens_of_openFile hopen
    rw [(opens.put ByteArray.empty opens.free).openFile_eq,
      tree.entry?_put_self opens.place_ne_nil] at hagain
    cases hagain
    rw [put_put]
    exact unchanged_put hopen added

end

end Tree

namespace CommandLine

/-- An outcome but for what is printed. -/
def Outcome.unprinted (outcome : Outcome) : Outcome := { outcome with output := "" }

/-! ## Commands that look agree -/

section

variable {m : Type → Type} [Monad m] [LawfulMonad m] [FileSystem m] {path : String}
  {mode platform : Option String} {fps : Option ℕ} {command first second : Command}

omit [LawfulMonad m] in
/-- A command that looks at a plan is given the settings that any other would be given. -/
theorem settingsFor_of_inspects (h : command.Inspects path mode platform fps)
    (environment : Environment) (verbose : Bool) (settings : Option String) :
    (settingsFor environment ⟨verbose, settings, command⟩ : ExceptT Problem m (Config Float))
      = settingsFor environment ⟨verbose, settings, .profiles⟩ := by
  cases h <;> rfl

/-- Whatever comes of the opening of the log, events are told in the words of the reports. -/
theorem openLog_bind_congr {β : Type} (reports : Reports) (logging : LoggingConfig)
    {next other : Journal × String → m β}
    (h : ∀ file notice, next (⟨file, reports logging⟩, notice)
      = other (⟨file, reports logging⟩, notice)) :
    openLog reports logging >>= next = openLog reports logging >>= other := by
  rw [openLog]
  cases logging.file with
  | none => simp only [pure_bind, h]
  | some path =>
      simp only [bind_assoc]
      congr 1
      funext result
      cases result <;> simp only [pure_bind, h]

omit [LawfulMonad m] in
/-- Without words nothing is told. -/
theorem tell_silent (file : Option String) (logging : LoggingConfig) (events : List Event) :
    (Journal.tell ⟨file, Reports.silent logging⟩ events : m String) = pure "" := by
  cases file with
  | none => rfl
  | some path =>
      rw [Journal.tell]
      simp [Reports.silent]

/-- Commands that look at a plan under the same keys differ in what they print only,
however files are kept, unless events are told. -/
theorem serve_unprinted (hfirst : first.Inspects path mode platform fps)
    (hsecond : second.Inspects path mode platform fps) (environment : Environment)
    (verbose : Bool) (settings : Option String) :
    Outcome.unprinted <$> (serve .silent environment ⟨verbose, settings, first⟩ : m Outcome)
      = Outcome.unprinted <$> serve .silent environment ⟨verbose, settings, second⟩ := by
  rw [serve, serve, settingsFor_of_inspects hfirst, settingsFor_of_inspects hsecond, map_bind,
    map_bind]
  congr 1
  funext result
  cases result with
  | error problem => rfl
  | ok config =>
      simp only [map_bind]
      refine openLog_bind_congr _ _ fun file notice => ?_
      -- both conclude from one finding, behind the same notice
      simp only [perform_of_inspects hfirst, perform_of_inspects hsecond, bind_assoc,
        Command.conclude, tell_silent, map_pure, pure_bind]
      congr 1
      funext finding
      rcases finding.result with failure | ⟨compiler, layout⟩ <;> rfl

end

/-! ## Files -/

/-- To be verbose does not change where events are told. -/
theorem file_loggingFor (verbose : Bool) (logging : LoggingConfig) :
    (loggingFor verbose logging).file = logging.file := by
  cases verbose <;> rfl

/-- The log is the file that the settings name if it can be opened, and otherwise there is
none. -/
theorem run_openLog (reports : Reports) {logging : LoggingConfig} {path : String}
    (h : logging.file = some path) (tree : Tree) :
    (openLog reports logging : StateM Tree (Journal × String)).run tree
      = match tree.touch path with
        | .ok after => ((⟨some path, reports logging⟩, ""), after)
        | .error fault => ((⟨none, reports logging⟩,
            unlines ["Failed to open log file " ++ path ++ ": " ++ fault.message]), tree) := by
  have htouch : (FileSystem.touch path : StateM Tree (Except FileFault Unit)).run tree
      = Tree.attempt (·.touch path) tree := rfl
  rw [openLog, h]
  simp only [StateT.run_bind, htouch, Tree.attempt]
  cases tree.touch path <;> rfl

/-- Without a name for the log no file is opened, and nothing is said. -/
theorem run_openLog_none (reports : Reports) {logging : LoggingConfig}
    (h : logging.file = none) (tree : Tree) :
    (openLog reports logging : StateM Tree (Journal × String)).run tree
      = ((⟨none, reports logging⟩, ""), tree) := by
  rw [openLog, h]
  rfl

/-- Telling events leaves the files alone or adds their words to the log. -/
theorem tell_cases (journal : Journal) (events : List Event) (tree : Tree) :
    ((journal.tell events : StateM Tree String).run tree).2 = tree ∨
      ∃ path, journal.file = some path ∧ tree.append path (journal.words events).toUTF8
        = .ok ((journal.tell events : StateM Tree String).run tree).2 := by
  obtain ⟨_ | path, words⟩ := journal
  · exact .inl rfl
  · have happend : (FileSystem.append path (words events).toUTF8
        : StateM Tree (Except FileFault Unit)).run tree
        = Tree.attempt (·.append path (words events).toUTF8) tree := rfl
    rw [Journal.tell]
    by_cases hempty : (words events).isEmpty = true
    · simp only [hempty, ↓reduceIte]
      exact .inl rfl
    · simp only [hempty, Bool.false_eq_true, ↓reduceIte, run_bind, happend, Tree.attempt]
      cases h : tree.append path (words events).toUTF8 with
      | ok after => exact .inr ⟨path, rfl, h⟩
      | error fault => exact .inl rfl

theorem unlines_singleton (text : String) : unlines [text] = text ++ "\n" := by
  simp [unlines, String.join]

/-- What has been delivered is read. -/
theorem read_of_deliver {path text : String} {tree after : Tree} {done : Unit}
    (h : outcome (deliver path text) tree = (.ok done, after)) :
    after.read path = .ok text.toUTF8 := by
  obtain ⟨_, between, -, hwrite⟩ := exists_of_outcome_bind (ok_of_tellingOf h)
  exact Tree.read_of_write (write_of_writeText hwrite)

/-- What is told behind the writing of a file stands in this file only if it is the log, and
then behind what has been written. -/
theorem read_of_tell (journal : Journal) (events : List Event) {tree : Tree}
    {path text : String} (h : tree.read path = .ok text.toUTF8) :
    let after := ((journal.tell events : StateM Tree String).run tree).2
    ∃ told, after.read path = .ok (text ++ told).toUTF8 ∧
      (told = "" ∨ ∃ log, journal.file = some log ∧ after.Meet path log) := by
  have hsame : (text ++ "").toUTF8 = text.toUTF8 := congrArg String.toUTF8 String.append_empty
  rcases tell_cases journal events tree with htree | ⟨log, hfile, happend⟩
  · refine ⟨"", ?_, .inl rfl⟩
    simp only [htree, hsame, h]
  · rcases Tree.read_of_append h happend with hread | ⟨hmeet, hread⟩
    · exact ⟨"", hsame ▸ hread, .inl rfl⟩
    · refine ⟨journal.words events, ?_, .inr ⟨log, hfile, hmeet⟩⟩
      rw [hread]
      simp [String.toUTF8_eq_toByteArray]

namespace Scene

variable {scene : Scene} {path : String} {mode platform : Option String} {fps : Option ℕ}
  {command first second : Command}

/-- The file of the log, if the settings name one. -/
def log (scene : Scene) : Option String := scene.config.toOption.bind (·.logging.file)

/-- When a command begins, either the file of the log is open, or there is none and no file
has been touched. -/
theorem opened_cases (scene : Scene) :
    (scene.opened.1.1.file = none ∧ scene.opened.2 = scene.tree) ∨
      ∃ log, scene.log = some log ∧ scene.opened.1.1.file = some log ∧
        scene.tree.touch log = .ok scene.opened.2 := by
  unfold opened log
  cases scene.config with
  | error problem => exact .inl ⟨rfl, rfl⟩
  | ok config =>
      have hverbose := file_loggingFor scene.verbose config.logging
      cases hfile : config.logging.file with
      | none =>
          have hopened := run_openLog_none scene.reports (hverbose.trans hfile) scene.tree
          exact .inl ⟨congrArg (·.1.1.file) hopened, congrArg Prod.snd hopened⟩
      | some log =>
          simp only [run_openLog scene.reports (hverbose.trans hfile)]
          cases htouch : scene.tree.touch log with
          | error fault => exact .inl ⟨rfl, rfl⟩
          | ok after => exact .inr ⟨log, hfile, rfl, htouch⟩

/-- Events are told in the file that the settings name, if they are told in a file. -/
theorem log_of_opened {file : String} (h : scene.opened.1.1.file = some file) :
    scene.log = some file := by
  rcases scene.opened_cases with ⟨hnone, -⟩ | ⟨log, hlog, hopen, -⟩
  · rw [hnone] at h
    cases h
  · rw [hlog, ← hopen, h]

/-- Telling events changes no file but the log. -/
theorem unchanged_told (scene : Scene) (events : List Event) :
    Tree.Unchanged scene.log scene.tree (scene.told events).2 := by
  unfold told
  rcases scene.opened_cases with ⟨hnone, htree⟩ | ⟨log, hlog, hopen, htouch⟩ <;>
    rcases tell_cases scene.opened.1.1 events scene.opened.2 with hsame | ⟨path, hpath, happend⟩
  · rw [hsame, htree]
    exact .refl _ _
  · rw [hnone] at hpath
    cases hpath
  · rw [hsame, hlog]
    exact Tree.unchanged_of_touch htouch
  · obtain rfl : log = path := Option.some.inj (hopen.symm.trans hpath)
    rw [hlog]
    exact Tree.unchanged_of_append htouch happend

/-- The words for events have no part in the opening of the log. -/
theorem opened_reports (scene : Scene) (reports : Reports) :
    (Scene.opened { scene with reports }).2 = scene.opened.2 := by
  have hconfig : Scene.config { scene with reports } = scene.config := rfl
  unfold opened
  rw [hconfig]
  cases scene.config with
  | error problem => rfl
  | ok config =>
      cases hfile : (loggingFor scene.verbose config.logging).file with
      | none => simp only [run_openLog_none _ hfile]
      | some path =>
          simp only [run_openLog _ hfile]
          cases scene.tree.touch path <;> rfl

/-- So they have no part in what is found out. -/
theorem findings_reports (scene : Scene) (reports : Reports) (path : String)
    (mode platform : Option String) (fps : Option ℕ) :
    Scene.findings { scene with reports } path mode platform fps
      = scene.findings path mode platform fps := by
  unfold findings finding
  rw [opened_reports]
  rfl

/-- How a command that looks at a plan ends is a matter of what there is to find out. -/
theorem ending_of_inspects (h : command.Inspects path mode platform fps) :
    (scene.run command).1.ending = match scene.findings path mode platform fps with
      | .ok _ => .success
      | .error failure => .failure failure := by
  cases hfound : scene.findings path mode platform fps with
  | error failure =>
      obtain ⟨output, notices, hrun⟩ := run_of_findings_error h hfound
      rw [hrun]
  | ok found =>
      obtain ⟨notices, hrun⟩ := run_of_findings_ok h hfound
      rw [hrun]

/-- So commands that look at a plan end alike, whatever is told. -/
theorem ending_eq (hfirst : first.Inspects path mode platform fps)
    (hsecond : second.Inspects path mode platform fps) (reports : Reports) :
    (scene.run first).1.ending = (Scene.run { scene with reports } second).1.ending := by
  rw [ending_of_inspects hfirst, ending_of_inspects hsecond, findings_reports scene reports]

/-- Behind a command that looks at a plan the files are those behind its news. -/
theorem run_snd_of_inspects (h : command.Inspects path mode platform fps) :
    (scene.run command).2
      = (scene.told (command.news (scene.finding path mode platform fps))).2 := by
  cases hfound : scene.findings path mode platform fps with
  | error failure =>
      obtain ⟨output, notices, hrun⟩ := run_of_findings_error h hfound
      rw [hrun]
  | ok found =>
      obtain ⟨notices, hrun⟩ := run_of_findings_ok h hfound
      rw [hrun]

/-- A call with a plan that can be compiled: the settings are read, the plan is loaded once
the log is open, the settings make sense at the frame rate, and the layout is computed. -/
def Ready (scene : Scene) (path : String) (mode platform : Option String) (fps : Option ℕ) :
    Prop :=
  ∃ config plan layout, scene.config = .ok config ∧
    (outcome (Plan.load path) scene.opened.2).1 = .ok plan ∧
    (config.compiler.atRate fps).fault? = none ∧
    Layout.computeAs plan (mode.getD plan.mode) (platform.getD plan.platform)
      (config.compiler.atRate fps) = .ok layout

/-- A plan can be compiled exactly if there are findings. -/
theorem ready_iff : scene.Ready path mode platform fps ↔
    ∃ compiler layout, scene.findings path mode platform fps = .ok (compiler, layout) := by
  simp only [findings_eq_ok_iff]
  constructor
  · rintro ⟨config, plan, layout, hconfig, hload, hsound, hlayout⟩
    exact ⟨⟨config.compiler.atRate fps, hsound⟩, layout, config, plan, hconfig, hload, rfl, hlayout⟩
  · rintro ⟨compiler, layout, config, plan, hconfig, hload, hcompiler, hlayout⟩
    rw [Compiler.layoutAs, hcompiler] at hlayout
    exact ⟨config, plan, layout, hconfig, hload, hcompiler ▸ compiler.sound, hlayout⟩

/-- A command that looks at a plan succeeds exactly if the plan can be compiled. -/
theorem exitCode_of_inspects (h : command.Inspects path mode platform fps) :
    (scene.run command).1.exitCode = 0 ↔ scene.Ready path mode platform fps := by
  rw [ready_iff, exitCode_eq_zero_iff h]

/-- Without findings nothing is written. -/
theorem run_of_not_ready (h : ¬ scene.Ready path mode platform fps) (backend : Backend)
    (target : String) :
    scene.run (.compile path backend mode platform fps (some target))
      = scene.run (.compile path backend mode platform fps none) := by
  cases hfound : scene.findings path mode platform fps with
  | error failure => rw [run_of_delivery, hfound]
  | ok found => exact absurd (ready_iff.mpr ⟨found.1, found.2, hfound⟩) h

/-- A payload that has been written is the one that would have been printed, in whatever
words events had been told.  Behind it stands something only if it has been written to the
log. -/
theorem read_of_delivery {backend : Backend} {target : String} (reports : Reports)
    (h : (scene.run (.compile path backend mode platform fps (some target))).1.exitCode = 0) :
    let printing := Scene.run { scene with reports } (.compile path backend mode platform fps none)
    let writing := scene.run (.compile path backend mode platform fps (some target))
    writing.1.output = "" ∧ ∃ text told, printing.1.output = text ++ "\n" ∧
      writing.2.read target = .ok (text ++ told).toUTF8 ∧
      ((∀ log ∈ scene.log, ¬ writing.2.Meet target log) → told = "") := by
  have hlooks : ∀ backend, Command.Inspects path mode platform fps
      (.compile path backend mode platform fps none) := fun backend => .compile backend _ _ _
  cases hfound : scene.findings path mode platform fps with
  | error failure =>
      obtain ⟨output, notices, hrun⟩ := run_of_findings_error (hlooks backend) hfound
      simp only [run_of_delivery, hfound, hrun] at h
      cases h
  | ok found =>
      obtain ⟨compiler, layout⟩ := found
      have hfound' := (findings_reports scene reports path mode platform fps).trans hfound
      have hprinted := output_of_findings_ok (hlooks backend) rfl hfound'
      simp only [run_of_delivery, hfound] at h ⊢
      split at h
      · cases h
      · rename_i done after hdeliver
        obtain ⟨told, hread, htold⟩ :=
          read_of_tell scene.opened.1.1 [.wrote target backend] (read_of_deliver hdeliver)
        refine ⟨rfl, compiler.textOf layout backend, told, ?_, hread, fun hapart => ?_⟩
        · rw [hprinted]
          exact unlines_singleton _
        · rcases htold with hempty | ⟨log, hfile, hmeet⟩
          · exact hempty
          · exact absurd hmeet (hapart log (log_of_opened hfile))

/-- **Commands agree, and failures leave no trace.**  Take a call on any tree of files and
the plan in any file, and let two runs tell events in different words.

Commands that look at the plan under the same keys and at the same frame rate end alike: they
all succeed, or all fail for the same reason, which are their last words.  If nothing is told,
they differ in what they print only, however files are kept.  They leave the files as they
were, but for what is added to the log, and they succeed exactly if the plan can be compiled.

A command that is to write the payload ends as its twin that prints does, and leaves the files
alone as it does, unless the plan can be compiled.  If it succeeds, it prints nothing, and the
file holds the bytes that its twin prints in front of the end of the line.  Only if this file
is the log itself may something stand behind them. -/
theorem commands_agree (scene : Scene) (reports : Reports) (path : String)
    (mode platform : Option String) (fps : Option ℕ) :
    (∀ first second : Command, first.Inspects path mode platform fps →
      second.Inspects path mode platform fps →
        (scene.run first).1.ending = (Scene.run { scene with reports } second).1.ending ∧
        ∀ (m : Type → Type) [Monad m] [LawfulMonad m] [FileSystem m],
          Outcome.unprinted <$> (serve .silent scene.environment
              ⟨scene.verbose, scene.settings, first⟩ : m Outcome)
            = Outcome.unprinted <$> serve .silent scene.environment
                ⟨scene.verbose, scene.settings, second⟩) ∧
    (∀ command : Command, command.Inspects path mode platform fps →
      Tree.Unchanged scene.log scene.tree (scene.run command).2 ∧
        ((scene.run command).1.exitCode = 0 ↔ scene.Ready path mode platform fps)) ∧
    ∀ (backend : Backend) (target : String),
      let printing :=
        Scene.run { scene with reports } (.compile path backend mode platform fps none)
      let writing := scene.run (.compile path backend mode platform fps (some target))
      (¬ scene.Ready path mode platform fps →
        writing.1.ending = printing.1.ending ∧ writing.1.exitCode = 1 ∧
          Tree.Unchanged scene.log scene.tree writing.2) ∧
      (writing.1.exitCode = 0 → writing.1.output = "" ∧
        ∃ text told, printing.1.output = text ++ "\n" ∧
          writing.2.read target = .ok (text ++ told).toUTF8 ∧
          ((∀ log ∈ scene.log, ¬ writing.2.Meet target log) → told = "")) := by
  have hunchanged : ∀ {command : Command}, command.Inspects path mode platform fps →
      Tree.Unchanged scene.log scene.tree (scene.run command).2 := by
    intro command h
    rw [run_snd_of_inspects h]
    exact scene.unchanged_told _
  refine ⟨fun first second hfirst hsecond => ⟨ending_eq hfirst hsecond reports, fun m _ _ _ =>
      serve_unprinted hfirst hsecond _ _ _⟩,
    fun command h => ⟨hunchanged h, exitCode_of_inspects h⟩,
    fun backend target => ⟨fun hready => ?_, read_of_delivery reports⟩⟩
  have hlooks : Command.Inspects path mode platform fps
      (.compile path backend mode platform fps none) := .compile backend mode platform fps
  -- without findings the run that would write is the run that would print
  rw [run_of_not_ready hready]
  refine ⟨ending_eq hlooks hlooks reports, ?_, hunchanged hlooks⟩
  cases hfound : scene.findings path mode platform fps with
  | error failure =>
      obtain ⟨output, notices, hrun⟩ := run_of_findings_error hlooks hfound
      rw [hrun]
      rfl
  | ok found => exact absurd (ready_iff.mpr ⟨found.1, found.2, hfound⟩) hready

/-- A call whose settings name a log, in a directory with a plan of one clip; every event is
told as a dot. -/
def harbor : Scene where
  environment := ⟨none, none⟩
  verbose := false
  settings := some "settings.json"
  tree :=
    { entries := [
        (["work"], .directory),
        (["work", "settings.json"], .file
          "\x7b\"logging\": \x7b\"file\": \"run.log\"\x7d\x7d".toUTF8),
        (["work", "plan.json"], .file
          ("\x7b\"mode\": \"vlog\", \"platform\": \"youtube\", "
            ++ "\"clips\": [\x7b\"sourceReference\": \"sea\", \"length\": 4\x7d]\x7d").toUTF8)]
      start := ["work"] }
  reports _ events := String.ofList (events.map fun _ => '.')

/-- A payload that is written to another file than the log stands there by itself, while two
events are told in the log.  A command that looks at the plan ends as another does of which
nothing is told, and one that is asked for no frames per second leaves the files alone. -/
theorem commands_agree_apart_from_log :
    (harbor.run (.validate "plan.json")).1.ending
        = (Scene.run { harbor with reports := .silent } (.info "plan.json")).1.ending ∧
      harbor.log = some "run.log" ∧
      Tree.Unchanged harbor.log harbor.tree (harbor.run (.validate "plan.json")).2 ∧
      (harbor.run (.validate "plan.json")).2.read "run.log" = .ok "..".toUTF8 ∧
      (harbor.run (.compile "plan.json" .frames none (some "tiktok") (some 24)
        (some "out/video.json"))).1.exitCode = 0 ∧
      (∃ text, (Scene.run { harbor with reports := .silent }
            (.compile "plan.json" .frames none (some "tiktok") (some 24) none)).1.output
          = text ++ "\n" ∧
        (harbor.run (.compile "plan.json" .frames none (some "tiktok") (some 24)
          (some "out/video.json"))).2.read "out/video.json" = .ok text.toUTF8) ∧
      Tree.Unchanged harbor.log harbor.tree (harbor.run (.compile "plan.json" .frames none none
        (some 0) (some "out/video.json"))).2 := by
  obtain ⟨hlooks, hspared, -⟩ := commands_agree harbor .silent "plan.json" none none none
  obtain ⟨-, -, hwrites⟩ :=
    commands_agree harbor .silent "plan.json" none (some "tiktok") (some 24)
  obtain ⟨-, hready, hrefused⟩ := commands_agree harbor .silent "plan.json" none none (some 0)
  have hlog : harbor.log = some "run.log" := by
    decide +kernel
  have hwritten : (harbor.run (.compile "plan.json" .frames none (some "tiktok") (some 24)
      (some "out/video.json"))).1.exitCode = 0 := by
    decide +kernel
  have hapart : ∀ log ∈ harbor.log, ¬ (harbor.run (.compile "plan.json" .frames none
      (some "tiktok") (some 24) (some "out/video.json"))).2.Meet "out/video.json" log := by
    rintro log hmem ⟨place, hvideo, hrun⟩
    obtain rfl : "run.log" = log := Option.some.inj (hlog.symm.trans hmem)
    have hplaces : ((harbor.run (.compile "plan.json" .frames none (some "tiktok") (some 24)
        (some "out/video.json"))).2.find "out/video.json").toOption
        ≠ ((harbor.run (.compile "plan.json" .frames none (some "tiktok") (some 24)
          (some "out/video.json"))).2.find "run.log").toOption := by
      decide +kernel
    rw [hvideo, hrun] at hplaces
    exact hplaces rfl
  have hzero : (harbor.run (.compile "plan.json" .frames none none (some 0) none)).1.exitCode
      = 1 := by
    decide +kernel
  have hnot : ¬ harbor.Ready "plan.json" none none (some 0) := by
    rw [← (hready _ (.compile .frames none none (some 0))).2, hzero]
    decide
  obtain ⟨-, text, told, hprinted, hread, htold⟩ := (hwrites .frames "out/video.json").2 hwritten
  rw [htold hapart, String.append_empty] at hread
  exact ⟨(hlooks _ _ .validate .info).1, hlog, (hspared _ .validate).1, by decide +kernel, hwritten,
    ⟨text, hprinted, hread⟩, ((hrefused .frames "out/video.json").1 hnot).2.2⟩

end Scene

end CommandLine

end Montage
