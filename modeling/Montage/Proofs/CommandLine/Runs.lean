import Mathlib.Control.Lawful
import Montage.CommandLine.Run
import Montage.Proofs.Stored

/-!
# Runs of the program

A command that only looks at a plan is a report on what the settings and the plan come to
(`perform_of_inspects`), however files are kept.  On a tree of files this is a function of
the call, `Scene.findings`, and a run is its report (`Scene.run_of_inspects`).

What a run that writes a payload does with the same findings is `Scene.run_of_delivery`.
-/

namespace Montage

namespace CompilerConfig

/-- The settings at a frame rate, if one is asked for. -/
def atRate {α : Type} (config : CompilerConfig α) : Option ℕ → CompilerConfig α
  | some fps => config.withFps fps
  | none => config

end CompilerConfig

/-- Sensible settings have one compiler. -/
theorem Compiler.new_eq_ok_iff {α : Type} [Scalar α] {config : CompilerConfig α}
    {compiler : Compiler α} : Compiler.new config = .ok compiler ↔ compiler.config = config := by
  unfold Compiler.new
  constructor
  · intro h
    split at h
    · cases h
      rfl
    · cases h
  · rintro rfl
    split
    · rfl
    · rename_i fault hfault
      cases compiler.sound.symm.trans hfault

namespace CommandLine

/-! ## Commands that look at a plan -/

/-- The commands that look at the plan in a file and print what they find, under the keys
and at the frame rate that they are given. -/
inductive Command.Inspects (path : String) :
    Option String → Option String → Option ℕ → Command → Prop
  | validate : Inspects path none none none (.validate path)
  | info : Inspects path none none none (.info path)
  | compile (backend : Backend) (mode platform : Option String) (fps : Option ℕ) :
      Inspects path mode platform fps (.compile path backend mode platform fps none)

namespace Command

/-- A command that looks at a plan is not one about settings. -/
theorem Inspects.ne_config {path : String} {mode platform : Option String} {fps : Option ℕ}
    {command : Command} (h : command.Inspects path mode platform fps) {init : Bool} :
    command ≠ .config init := by
  rintro rfl
  cases h

/-- What a command prints before it looks at its plan. -/
def opening : Command → String
  | .validate path => unlines ["Validating plan at: " ++ path]
  | _ => ""

/-- What a command that looks at a plan says of its layout. -/
def account (command : Command) (compiler : Compiler Float) (layout : Layout Float) : String :=
  match command with
  | .compile _ backend _ _ _ _ => unlines [compiler.textOf layout backend]
  | .validate _ => unlines (validation layout)
  | .info path => unlines (information path compiler.clock layout)
  | _ => ""

/-- What a command that looks at a plan comes to. -/
def report (command : Command) : Except Failure (Compiler Float × Layout Float) → Outcome
  | .error failure => .failing command.opening failure
  | .ok (compiler, layout) => .success (command.opening ++ command.account compiler layout)

/-- What a command tells about its plan: `compile` repeats what the layout had to put
right. -/
def news (command : Command) (finding : Finding) : List Event :=
  match command, finding.result with
  | .compile .., .ok (_, layout) => finding.told ++ layout.warnings.map .normalized
  | _, _ => finding.told

end Command

section

variable {m : Type → Type} [Monad m] [LawfulMonad m] [FileSystem m] {path : String}
  {mode platform : Option String} {fps : Option ℕ} {command : Command}

/-- What a command that looks at a plan does with a finding: its news are told, and then it
reports. -/
def Command.conclude (command : Command) (journal : Journal) (finding : Finding) : m Outcome :=
  (command.report finding.result).after <$> journal.tell (command.news finding)

/-- `validate` concludes from what it finds. -/
theorem validate_eq_conclude (config : CompilerConfig Float) (journal : Journal)
    (path : String) : (validate config journal path : m Outcome)
      = prepare config path none none >>= (Command.validate path).conclude journal := by
  rw [validate]
  congr 1
  funext finding
  rw [Command.conclude, map_eq_pure_bind]
  rcases finding with ⟨told, failure | ⟨compiler, layout⟩⟩ <;> rfl

/-- `info` concludes from what it finds. -/
theorem info_eq_conclude (config : CompilerConfig Float) (journal : Journal) (path : String) :
    (info config journal path : m Outcome)
      = prepare config path none none >>= (Command.info path).conclude journal := by
  rw [info]
  congr 1
  funext finding
  rw [Command.conclude, map_eq_pure_bind]
  rcases finding with ⟨told, failure | ⟨compiler, layout⟩⟩
  · rfl
  · simp only [Command.report, Command.opening, String.empty_append]
    rfl

/-- `compile` concludes from what it finds, unless the payload is to be written. -/
theorem compile_eq_conclude (config : CompilerConfig Float) (journal : Journal)
    (path : String) (backend : Backend) (mode platform : Option String) (fps : Option ℕ) :
    (compile config journal path backend mode platform none : m Outcome)
      = prepare config path mode platform
          >>= (Command.compile path backend mode platform fps none).conclude journal := by
  rw [compile]
  congr 1
  funext finding
  rw [Command.conclude, map_eq_pure_bind]
  rcases finding with ⟨told, failure | ⟨compiler, layout⟩⟩
  · rfl
  · simp only [Command.report, Command.opening, String.empty_append]
    rfl

omit [LawfulMonad m] in
/-- A plan is compiled at the frame rate that is asked for. -/
theorem perform_compile (environment : Environment) (config : Config Float) (journal : Journal)
    (verbose : Bool) (settings : Option String) (path : String) (backend : Backend)
    (mode platform : Option String) (fps : Option ℕ) (target : Option String) :
    (perform environment config journal
        ⟨verbose, settings, .compile path backend mode platform fps target⟩ : m Outcome)
      = compile (config.compiler.atRate fps) journal path backend mode platform target := by
  cases fps <;> rfl

/-- A command that looks at a plan concludes from what its preparation has found. -/
theorem perform_of_inspects (h : command.Inspects path mode platform fps)
    (environment : Environment) (config : Config Float) (journal : Journal) (verbose : Bool)
    (settings : Option String) :
    (perform environment config journal ⟨verbose, settings, command⟩ : m Outcome)
      = prepare (config.compiler.atRate fps) path mode platform >>= command.conclude journal := by
  cases h with
  | validate => exact validate_eq_conclude config.compiler journal path
  | info => exact info_eq_conclude config.compiler journal path
  | compile backend =>
      rw [perform_compile]
      exact compile_eq_conclude (config.compiler.atRate fps) journal path backend mode platform fps

end

/-! ## Runs on a tree of files -/

/-- A call of the program on a tree of files, but for its command. -/
structure Scene where
  environment : Environment
  verbose : Bool
  /-- The file that is named for the settings. -/
  settings : Option String
  tree : Tree
  /-- The words for events; there are none unless it is said otherwise. -/
  reports : Reports := .silent

namespace Scene

variable (scene : Scene)

/-- What a command prints, how it ends, and the files behind it. -/
def run (command : Command) : Outcome × Tree :=
  (serve scene.reports scene.environment ⟨scene.verbose, scene.settings, command⟩
    : StateM Tree Outcome).run scene.tree

/-- The settings of a call: those in the file that is named for them, or else those in the
usual file, or else the standard ones. -/
def config : Except Problem (Config Float) :=
  match scene.settings with
  | some path => (outcome (Config.load path) scene.tree).1
  | none => .ok ((outcome (Config.load scene.environment.configFile) scene.tree).1.toOption.getD
      .standard)

/-- Where events are told, what is said when the log is opened, and the files then; without
settings no log is opened. -/
def opened : (Journal × String) × Tree :=
  match scene.config with
  | .error _ => ((⟨none, fun _ => ""⟩, ""), scene.tree)
  | .ok config =>
    (openLog scene.reports (loggingFor scene.verbose config.logging)
      : StateM Tree (Journal × String)).run scene.tree

/-- What there is to find out about a plan before anything is printed or written. -/
def finding (path : String) (mode platform : Option String) (fps : Option ℕ) : Finding :=
  match scene.config with
  | .error problem => ⟨[], .error (.refused problem)⟩
  | .ok config =>
    ((prepare (config.compiler.atRate fps) path mode platform : StateM Tree Finding).run
      scene.opened.2).1

/-- What comes of it. -/
def findings (path : String) (mode platform : Option String) (fps : Option ℕ) :
    Except Failure (Compiler Float × Layout Float) :=
  (scene.finding path mode platform fps).result

/-- What is said of events beside the output when they are told behind the opening of the
log, and the files then. -/
def told (events : List Event) : String × Tree :=
  (scene.opened.1.1.tell events : StateM Tree String).run scene.opened.2

end Scene

variable {scene : Scene} {command : Command} {config : Config Float} {problem : Problem}
  {path : String} {mode platform : Option String} {fps : Option ℕ} {tree : Tree}

/-- Preparations are what is made of the plan that has been loaded; no file is changed. -/
theorem run_prepare (config : CompilerConfig Float) (path : String)
    (mode platform : Option String) (tree : Tree) :
    (prepare config path mode platform : StateM Tree Finding).run tree
      = (match (outcome (Plan.load path) tree).1 with
          | .error cause => ⟨[], .error (.unusable cause)⟩
          | .ok plan => examine config plan (mode.getD plan.mode) (platform.getD plan.platform),
        tree) := by
  rw [prepare, run_bind_run, (Plan.reading_load path).outcome_eq]
  cases (outcome (Plan.load path) tree).1 <;> rfl

/-- A plan has a layout when the settings make sense and the layout is computed. -/
theorem examine_eq_ok_iff {config : CompilerConfig Float} {plan : Plan Float}
    {mode platform : String} {compiler : Compiler Float} {layout : Layout Float} :
    (examine config plan mode platform).result = .ok (compiler, layout) ↔
      compiler.config = config ∧ compiler.layoutAs plan mode platform = .ok layout := by
  rw [examine]
  constructor
  · intro h
    split at h
    · cases h
    · rename_i built hnew
      split at h
      · cases h
      · rename_i hlayout
        cases h
        exact ⟨Compiler.new_eq_ok_iff.mp hnew, hlayout⟩
  · rintro ⟨hconfig, hlayout⟩
    rw [Compiler.new_eq_ok_iff.mpr hconfig]
    simp only [hlayout]

/-- Preparations succeed when the plan is loaded, the settings make sense and the layout is
computed. -/
theorem prepare_eq_ok_iff {config : CompilerConfig Float} {compiler : Compiler Float}
    {layout : Layout Float} :
    ((prepare config path mode platform : StateM Tree Finding).run tree).1.result
        = .ok (compiler, layout) ↔
      ∃ plan, (outcome (Plan.load path) tree).1 = .ok plan ∧ compiler.config = config ∧
        compiler.layoutAs plan (mode.getD plan.mode) (platform.getD plan.platform)
          = .ok layout := by
  rw [run_prepare]
  cases (outcome (Plan.load path) tree).1 with
  | error fault => simp
  | ok plan => simp [examine_eq_ok_iff]

/-- A command is given the settings of the call.  One that is to write them does not need the
file that is named for them, so there it has to be looked for. -/
theorem settingsFor_eq (scene : Scene)
    (h : command = .config true → ∀ path ∈ scene.settings, scene.tree.isPresent path = true) :
    outcome (settingsFor scene.environment ⟨scene.verbose, scene.settings, command⟩) scene.tree
      = (scene.config, scene.tree) := by
  unfold Scene.config
  cases hsettings : scene.settings with
  | none =>
      -- read by a part that can fail by itself, so that its faults do not end the run
      exact Config.outcome_loadUsual scene.environment scene.tree
  | some path =>
      have hnamed : outcome (settingsFor scene.environment ⟨scene.verbose, some path, command⟩)
          scene.tree = outcome (Config.load path) scene.tree := by
        cases command with
        | config init =>
            cases init with
            | false => rfl
            | true =>
                have hpresent :
                    outcome (FileSystem.isPresent path : ExceptT Problem (StateM Tree) Bool)
                      scene.tree = (.ok true, scene.tree) := by
                  rw [← h rfl path hsettings]
                  rfl
                unfold settingsFor
                simp only [outcome_bind, hpresent]
                rfl
        | _ => rfl
      rw [hnamed]
      exact (Config.reading_load path).outcome_eq scene.tree

namespace Scene

section

variable (hcommand : command = .config true →
  ∀ path ∈ scene.settings, scene.tree.isPresent path = true)

include hcommand

/-- Without settings a run ends at once, with the reason, and leaves the files alone. -/
theorem run_of_config_error (h : scene.config = .error problem) :
    scene.run command = (.failing "" (.refused problem), scene.tree) := by
  have hsettings := settingsFor_eq scene hcommand
  rw [h] at hsettings
  rw [run, serve, run_bind_run, hsettings]
  rfl

/-- With settings a run opens the log and then carries out its command; what is said about
the log comes first. -/
theorem run_of_config_ok (h : scene.config = .ok config) :
    scene.run command =
      let result := (perform scene.environment config scene.opened.1.1
        ⟨scene.verbose, scene.settings, command⟩ : StateM Tree Outcome).run scene.opened.2
      (result.1.after scene.opened.1.2, result.2) := by
  have hsettings := settingsFor_eq scene hcommand
  have hopened : (openLog scene.reports (loggingFor scene.verbose config.logging)
      : StateM Tree (Journal × String)).run scene.tree = scene.opened := by
    rw [opened, h]
  rw [h] at hsettings
  rw [run, serve, run_bind_run, hsettings, ← hopened]
  rfl

end

/-- What is prepared behind the opening of the log is the finding, and no file is changed. -/
theorem finding_of_config_ok (h : scene.config = .ok config) :
    (prepare (config.compiler.atRate fps) path mode platform : StateM Tree Finding).run
        scene.opened.2
      = (scene.finding path mode platform fps, scene.opened.2) := by
  rw [finding, h]
  simp only [run_prepare]

/-! ### Commands that look -/

/-- What a command that looks at a plan prints and says, when it has its settings. -/
theorem run_of_inspects (h : command.Inspects path mode platform fps)
    (hconfig : scene.config = .ok config) :
    scene.run command
      = (((command.report (scene.finding path mode platform fps).result).after
            (scene.told (command.news (scene.finding path mode platform fps))).1).after
          scene.opened.1.2,
          (scene.told (command.news (scene.finding path mode platform fps))).2) := by
  rw [run_of_config_ok (absurd · h.ne_config) hconfig, perform_of_inspects h, run_bind,
    finding_of_config_ok hconfig]
  rfl

/-- A command that looks at a plan and finds a layout prints its account of it. -/
theorem run_of_findings_ok (h : command.Inspects path mode platform fps)
    {compiler : Compiler Float} {layout : Layout Float}
    (hfound : scene.findings path mode platform fps = .ok (compiler, layout)) :
    ∃ notices, scene.run command
      = (⟨command.opening ++ command.account compiler layout, notices, .success⟩,
          (scene.told (command.news (scene.finding path mode platform fps))).2) := by
  rw [findings] at hfound
  cases hconfig : scene.config with
  | error problem =>
      rw [finding, hconfig] at hfound
      cases hfound
  | ok config =>
      rw [run_of_inspects h hconfig, hfound]
      exact ⟨_, rfl⟩

/-- What a command without an opening prints is its account of the layout, whatever is told
meanwhile. -/
theorem output_of_findings_ok (h : command.Inspects path mode platform fps)
    (hopening : command.opening = "") {compiler : Compiler Float} {layout : Layout Float}
    (hfound : scene.findings path mode platform fps = .ok (compiler, layout)) :
    (scene.run command).1.output = command.account compiler layout := by
  obtain ⟨notices, hrun⟩ := run_of_findings_ok h hfound
  rw [hrun, hopening]
  exact String.empty_append

/-- A command that looks at a plan and finds no layout fails with the cause. -/
theorem run_of_findings_error (h : command.Inspects path mode platform fps) {failure : Failure}
    (hfound : scene.findings path mode platform fps = .error failure) :
    ∃ output notices, scene.run command = (⟨output, notices, .failure failure⟩,
      (scene.told (command.news (scene.finding path mode platform fps))).2) := by
  rw [findings] at hfound
  cases hconfig : scene.config with
  | error problem =>
      -- without settings the run ends before the command prints or tells anything
      refine ⟨"", "", ?_⟩
      rw [run_of_config_error (absurd · h.ne_config) hconfig, told, opened]
      rw [finding, hconfig] at hfound
      cases hfound
      rw [hconfig]
      rfl
  | ok config =>
      rw [run_of_inspects h hconfig, hfound]
      exact ⟨_, _, rfl⟩

/-- A command that looks at a plan succeeds when there are findings. -/
theorem exitCode_eq_zero_iff (h : command.Inspects path mode platform fps) :
    (scene.run command).1.exitCode = 0 ↔
      ∃ compiler layout, scene.findings path mode platform fps = .ok (compiler, layout) := by
  cases hfound : scene.findings path mode platform fps with
  | error failure =>
      obtain ⟨output, notices, hrun⟩ := run_of_findings_error h hfound
      rw [hrun]
      constructor
      · nofun
      · rintro ⟨compiler, layout, hok⟩
        cases hok
  | ok found =>
      obtain ⟨notices, hrun⟩ := run_of_findings_ok h hfound
      rw [hrun]
      exact ⟨fun _ => ⟨found.1, found.2, rfl⟩, fun _ => rfl⟩

/-! ### Commands that write -/

/-- What is found out decides between printing a payload and writing it.  The payload is
written behind the news of the plan, and that it has been written is told behind it. -/
theorem run_of_delivery (backend : Backend) (target : String) :
    scene.run (.compile path backend mode platform fps (some target))
      = match scene.findings path mode platform fps with
        | .error _ => scene.run (.compile path backend mode platform fps none)
        | .ok (compiler, layout) =>
          let said := scene.told ((scene.finding path mode platform fps).told
            ++ layout.warnings.map .normalized)
          match outcome (deliver target (compiler.textOf layout backend)) said.2 with
          | (.error failure, after) =>
            (((Outcome.failing "" failure).after said.1).after scene.opened.1.2, after)
          | (.ok _, after) =>
            let last := (scene.opened.1.1.tell [.wrote target backend] : StateM Tree String).run
              after
            (Outcome.after ⟨"", said.1 ++ (last.1 ++ unlines [written path target layout]),
              .success⟩ scene.opened.1.2, last.2) := by
  rw [findings]
  cases hconfig : scene.config with
  | error problem =>
      rw [run_of_config_error (by nofun) hconfig, run_of_config_error (by nofun) hconfig, finding,
        hconfig]
  | ok config =>
      rw [run_of_config_ok (by nofun) hconfig, run_of_config_ok (by nofun) hconfig,
        perform_compile, perform_compile, compile, compile, run_bind, run_bind,
        finding_of_config_ok hconfig]
      rcases scene.finding path mode platform fps with ⟨told, failure | ⟨compiler, layout⟩⟩
      · rfl
      · simp only [run_bind, Scene.told, outcome]
        rcases StateT.run (deliver target (compiler.textOf layout backend)).run _ with
          ⟨failure | done, after⟩ <;> rfl

/-! ### What there is to find out -/

/-- Findings are made when the settings are read, the plan is loaded once the log is open,
the settings make sense at the frame rate, and the layout is computed. -/
theorem findings_eq_ok_iff {compiler : Compiler Float} {layout : Layout Float} :
    scene.findings path mode platform fps = .ok (compiler, layout) ↔
      ∃ config plan, scene.config = .ok config ∧
        (outcome (Plan.load path) scene.opened.2).1 = .ok plan ∧
        compiler.config = config.compiler.atRate fps ∧
        compiler.layoutAs plan (mode.getD plan.mode) (platform.getD plan.platform)
          = .ok layout := by
  unfold findings finding
  cases scene.config with
  | error problem => simp
  | ok config => simp [prepare_eq_ok_iff]

end Scene

end CommandLine

end Montage
