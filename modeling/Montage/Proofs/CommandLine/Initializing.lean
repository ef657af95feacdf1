import Montage.Proofs.CommandLine.Traces
import Montage.Proofs.Config.Saved

/-!
# Settings that are written to their file

`config --init` writes the settings of the call over the file they come from.  Opening the
log before does not touch that file (`stands_openLog`), and on the files behind the run the
log is opened as it was the first time (`openLog_again`).  So the file has a normal form that
says the same as before, and a second run changes nothing
(`Scene.settings_normal_form`).

What the settings come from when the file cannot be used depends on whether it has been named
(`Scene.init_of_rejected`).
-/

namespace Montage

namespace CommandLine

theorem unlines_pair (first second : String) :
    unlines [first, second] = first ++ "\n" ++ (second ++ "\n") := by
  simp [unlines, String.join]

/-! ## The log -/

/-- Opening the log leaves a file that is there alone. -/
theorem stands_openLog (reports : Reports) (logging : LoggingConfig) {tree : Tree}
    {path : String} {place : List String} {content : ByteArray}
    (h : tree.Stands path place content) :
    ((openLog reports logging : StateM Tree (Journal × String)).run tree).2.Stands path place
      content := by
  cases hfile : logging.file with
  | none => rwa [run_openLog_none reports hfile]
  | some log =>
      rw [run_openLog reports hfile]
      cases htouch : tree.touch log with
      | error fault => exact h
      | ok after => exact h.touch htouch

/-- Opening the log leaves a tree that hangs together as one. -/
theorem rooted_openLog (reports : Reports) (logging : LoggingConfig) {tree : Tree}
    (h : tree.Rooted) :
    ((openLog reports logging : StateM Tree (Journal × String)).run tree).2.Rooted := by
  cases hfile : logging.file with
  | none => rwa [run_openLog_none reports hfile]
  | some log =>
      rw [run_openLog reports hfile]
      cases htouch : tree.touch log with
      | error fault => exact h
      | ok after => exact h.touch htouch

/-- Opening the log again says the same and changes nothing, whatever files hold by then. -/
theorem openLog_again (reports : Reports) (logging : LoggingConfig) {tree other : Tree}
    (h : ((openLog reports logging : StateM Tree (Journal × String)).run tree).2.SameShape other) :
    (openLog reports logging : StateM Tree (Journal × String)).run other
      = (((openLog reports logging : StateM Tree (Journal × String)).run tree).1, other) := by
  cases hfile : logging.file with
  | none => rw [run_openLog_none reports hfile, run_openLog_none reports hfile]
  | some log =>
      rw [run_openLog reports hfile, run_openLog reports hfile] at *
      cases htouch : tree.touch log with
      | error fault =>
          rw [htouch] at h
          rw [Tree.touch_of_touch_error htouch h]
      | ok after =>
          rw [htouch] at h
          rw [Tree.touch_of_touch htouch h]

namespace Scene

variable {scene : Scene} {config : Config Float} {problem : Problem}

/-! ## Runs -/

/-- The file of the settings. -/
def target (scene : Scene) : String := scene.settings.getD scene.environment.configFile

/-- Settings that can be loaded are the settings of the call. -/
theorem config_of_load (h : (outcome (Config.load scene.target) scene.tree).1 = .ok config) :
    scene.config = .ok config := by
  rw [Scene.config]
  rw [target] at h
  cases hsettings : scene.settings with
  | none =>
      rw [hsettings, Option.getD_none] at h
      simp only [h]
      rfl
  | some path => rwa [hsettings, Option.getD_some] at h

/-- With its settings a call opens the log that they name. -/
theorem opened_of_config (hconfig : scene.config = .ok config) :
    scene.opened = (openLog scene.reports (loggingFor scene.verbose config.logging)
      : StateM Tree (Journal × String)).run scene.tree := by
  rw [opened, hconfig]

/-- So a file that is there stands behind the opening of the log. -/
theorem stands_opened {path : String} {place : List String} {content : ByteArray}
    (hconfig : scene.config = .ok config) (h : scene.tree.Stands path place content) :
    scene.opened.2.Stands path place content := by
  rw [opened_of_config hconfig]
  exact stands_openLog _ _ h

/-- The tree behind the opening of the log hangs together. -/
theorem rooted_opened (hconfig : scene.config = .ok config) (h : scene.tree.Rooted) :
    scene.opened.2.Rooted := by
  rw [opened_of_config hconfig]
  exact rooted_openLog _ _ h

/-- A call with the same settings, on files of the same shape as those behind the log, finds
the log open. -/
theorem opened_again {other : Tree} (hconfig : scene.config = .ok config)
    (hother : Scene.config { scene with tree := other } = .ok config)
    (hshape : scene.opened.2.SameShape other) :
    Scene.opened { scene with tree := other } = (scene.opened.1, other) := by
  rw [opened_of_config hconfig] at hshape ⊢
  rw [opened_of_config hother]
  exact openLog_again _ _ hshape

/-- Settings are shown as their text. -/
theorem run_show (hconfig : scene.config = .ok config) :
    scene.run (.config false)
      = (⟨unlines ["# " ++ scene.target, config.toJson.pretty], scene.opened.1.2 ++ "", .success⟩,
          scene.opened.2) := by
  rw [run_of_config_ok (by nofun) hconfig]
  rfl

/-- What `config` prints is the name of the file and the text of the settings. -/
theorem output_show (hconfig : scene.config = .ok config) :
    (scene.run (.config false)).1.exitCode = 0 ∧
      (scene.run (.config false)).1.output
        = "# " ++ scene.target ++ "\n" ++ (config.toJson.pretty ++ "\n") := by
  rw [run_show hconfig]
  exact ⟨rfl, unlines_pair _ _⟩

/-- Settings are written where a file stands. -/
theorem run_init {place : List String} {content : ByteArray} (hconfig : scene.config = .ok config)
    (hstands : scene.tree.Stands scene.target place content) :
    scene.run (.config true)
      = (⟨unlines ["Wrote config to: " ++ scene.target], scene.opened.1.2 ++ "", .success⟩,
          scene.opened.2.put place (.file config.toJson.pretty.toUTF8)) := by
  have hpresent : ∀ path ∈ scene.settings, scene.tree.isPresent path = true := by
    intro path hpath
    have htarget : scene.target = path := by
      rw [target, Option.mem_def.mp hpath, Option.getD_some]
    exact htarget ▸ Tree.isPresent_of_read hstands.read
  obtain ⟨opens⟩ := (stands_opened hconfig hstands).opens
  have hsave := Config.outcome_save config opens
  rw [run_of_config_ok (fun _ => hpresent) hconfig]
  have hshow : (perform scene.environment config scene.opened.1.1
      ⟨scene.verbose, scene.settings, .config true⟩ : StateM Tree Outcome).run scene.opened.2
      = (Outcome.success (unlines ["Wrote config to: " ++ scene.target]),
          scene.opened.2.put place (.file config.toJson.pretty.toUTF8)) := by
    change (showConfig config scene.target true : StateM Tree Outcome).run scene.opened.2 = _
    rw [showConfig, if_pos rfl, run_bind_run, hsave]
    rfl
  rw [hshow]
  rfl

/-! ## A normal form -/

/-- **Settings have a normal form.**  Settings whose frame rate fits its field and that have
no fault are loaded from the file they have been saved to.

A file from which settings can be loaded is rewritten by `config --init` to a text from which
the same settings are loaded.  Once it has been rewritten, a second run leaves all files as
they are, and `config` prints this text behind its first line, before the file is rewritten
and afterwards.

Settings with a fault are never loaded, whatever text they stand in. -/
theorem settings_normal_form :
    (∀ (config : Config Float) (path : String) (tree after : Tree),
      config.compiler.fps < UInt32.size → config.compiler.fault? = none →
        outcome (config.save path) tree = (.ok (), after) →
          outcome (Config.load path) after = (.ok config, after)) ∧
    (∀ (scene : Scene) (config : Config Float), scene.tree.Rooted →
      (outcome (Config.load scene.target) scene.tree).1 = .ok config →
        let first := scene.run (.config true)
        let second := Scene.run { scene with tree := first.2 } (.config true)
        first.1.exitCode = 0 ∧ second.1.exitCode = 0 ∧ first.2.Rooted ∧ second.2 = first.2 ∧
          ∃ text, first.2.read scene.target = .ok text.toUTF8 ∧ Config.parse text = .ok config ∧
            outcome (Config.load scene.target) first.2 = (.ok config, first.2) ∧
            ∀ tree ∈ [scene.tree, first.2],
              let shown := Scene.run { scene with tree } (.config false)
              shown.1.exitCode = 0 ∧
                shown.1.output = "# " ++ scene.target ++ "\n" ++ (text ++ "\n")) ∧
    ∀ (path text : String) (tree : Tree) (config : Config Float) (fault : ConfigFault Float),
      tree.read path = .ok text.toUTF8 → Config.parse text = .ok config →
        config.compiler.fault? = some fault →
          outcome (Config.load path) tree = (.error fault.problem, tree) := by
  refine ⟨fun config path tree after => Config.load_of_save, fun scene config hrooted hload => ?_,
    fun path text tree config fault hread hparse hfault => ?_⟩
  · obtain ⟨before, hbefore, hparsed, hfault⟩ := Config.exists_of_load hload
    obtain ⟨place, hstands⟩ := hrooted.exists_stands_of_read hbefore
    have hconfig := config_of_load hload
    have hlogged := stands_opened hconfig hstands
    obtain ⟨text, htext⟩ : ∃ text, config.toJson.pretty = text := ⟨_, rfl⟩
    have hfirst := run_init hconfig hstands
    rw [htext] at hfirst
    generalize hafter : scene.opened.2.put place (.file text.toUTF8) = after at hfirst
    have hwritten : after.Stands scene.target place text.toUTF8 := hafter ▸ hlogged.put text.toUTF8
    -- the text says the same as what stood there before
    have hparse : Config.parse text = .ok config := by
      rw [← htext]
      exact Config.parse_pretty (Config.fps_lt_of_parse hparsed) hfault
    have hagain : outcome (Config.load scene.target) after = (.ok config, after) := by
      rw [Config.outcome_load hwritten.read hparse, hfault]
    have hconfig' : Scene.config { scene with tree := after } = .ok config :=
      config_of_load (congrArg Prod.fst hagain)
    -- and the log is where it was
    have hshape : scene.opened.2.SameShape after := hafter ▸ hlogged.sameShape_put text.toUTF8
    have hsecond := run_init hconfig' hwritten
    rw [opened_again hconfig hconfig' hshape, htext, ← hafter, Tree.put_put, hafter] at hsecond
    simp only [hfirst, hsecond]
    refine ⟨rfl, rfl, ?_, trivial, text, hwritten.read, hparse, hagain, fun tree htree => ?_⟩
    · obtain ⟨opens⟩ := hlogged.opens
      exact hafter ▸ opens.rooted_put (rooted_opened hconfig hrooted) _
    · rcases List.mem_cons.mp htree with rfl | htree
      · exact htext ▸ output_show hconfig
      · obtain rfl := List.mem_singleton.mp htree
        exact htext ▸ output_show hconfig'
  · rw [Config.outcome_load hread hparse, hfault]

/-- A call without a file named for its settings, and a text in the usual one. -/
def usual (text : String) : Scene where
  environment := ⟨some "xdg", none⟩
  verbose := false
  settings := none
  tree :=
    { entries := [
        (["work"], .directory),
        (["work", "xdg"], .directory),
        (["work", "xdg", "reelcraft"], .directory),
        (["work", "xdg", "reelcraft", "config.json"], .file text.toUTF8)]
      start := ["work"] }

/-- The files of `usual` hang together. -/
theorem rooted_usual (text : String) : (usual text).tree.Rooted := by
  refine Tree.rooted_of_entries rfl fun item hitem => ?_
  simp only [usual, List.mem_cons, List.not_mem_nil, or_false] at hitem
  rcases hitem with rfl | rfl | rfl | rfl <;> rfl

/-- Some of the settings, in another order than they are written in, beside a member that
means nothing. -/
def scribbled : String :=
  "\x7b\"logging\": \x7b\"file\": \"run.log\"\x7d, \"tide\": [1, null], "
    ++ "\"compiler\": \x7b\"min_overlay_secs\": -0.0, \"fps\": 24\x7d\x7d"

/-- Settings that ask for no frames. -/
def frameless : String := "\x7b\"compiler\": \x7b\"fps\": 0\x7d\x7d"

/-- The standard settings in a new file, those of a scribbled text, and settings with a
fault. -/
theorem settings_normal_form_of_new_partial_and_faulty_files :
    (∃ after, outcome ((Config.standard : Config Float).save "a/b.json") Tree.empty
        = (.ok (), after) ∧
      outcome (Config.load "a/b.json") after = (.ok .standard, after)) ∧
    (∃ config, (outcome (Config.load (usual scribbled).target) (usual scribbled).tree).1
        = .ok config ∧ config.compiler.fps = 24 ∧
      let first := (usual scribbled).run (.config true)
      (Scene.run { usual scribbled with tree := first.2 } (.config true)).2 = first.2 ∧
        outcome (Config.load (usual scribbled).target) first.2 = (.ok config, first.2)) ∧
    outcome (Config.load (usual frameless).target) (usual frameless).tree
      = (.error (ConfigFault.problem .frameRateZero), (usual frameless).tree) := by
  obtain ⟨hsaved, hinit, hfault⟩ := settings_normal_form
  refine ⟨?_, ?_, ?_⟩
  · have hsave : (outcome ((Config.standard : Config Float).save "a/b.json") Tree.empty).1.toBool
        = true := by
      decide +kernel
    obtain ⟨after, hafter⟩ := exists_of_toBool hsave
    exact ⟨after, hafter, hsaved _ _ _ _ (by decide) (by decide +kernel) hafter⟩
  · have hfps : (outcome (Config.load (usual scribbled).target)
        (usual scribbled).tree).1.toOption.map (·.compiler.fps) = some 24 := by
      decide +kernel
    obtain ⟨config, hload, hconfig⟩ := Option.map_eq_some_iff.mp hfps
    have hloads : (outcome (Config.load (usual scribbled).target) (usual scribbled).tree).1
        = .ok config := eq_ok_of_toOption hload
    obtain ⟨-, -, -, hsecond, text, -, -, hagain, -⟩ :=
      hinit _ config (rooted_usual scribbled) hloads
    exact ⟨config, hloads, hconfig, hsecond, hagain⟩
  · have hread : (usual frameless).tree.read (usual frameless).target = .ok frameless.toUTF8 := by
      decide +kernel
    have hfps : (Config.parse frameless).toOption.map (·.compiler.fps) = some 0 := by
      decide +kernel
    obtain ⟨config, hparse, hzero⟩ := Option.map_eq_some_iff.mp hfps
    exact hfault _ _ _ config .frameRateZero hread (eq_ok_of_toOption hparse) (if_pos hzero)

/-! ## Settings that cannot be used -/

/-- A call that names a file it cannot use for settings has none. -/
theorem run_init_of_named {path : String} {content : ByteArray}
    (hsettings : scene.settings = some path) (hread : scene.tree.read path = .ok content)
    (h : (outcome (Config.load path) scene.tree).1 = .error problem) :
    scene.run (.config true) = (.failing "" (.refused problem), scene.tree) := by
  refine run_of_config_error (fun _ named hnamed => ?_) ?_
  · rw [hsettings] at hnamed
    obtain rfl := Option.some.inj hnamed
    exact Tree.isPresent_of_read hread
  · rw [Scene.config, hsettings]
    exact h

/-- In place of a usual file that cannot be used there are the standard settings. -/
theorem config_of_usual (hsettings : scene.settings = none)
    (h : (outcome (Config.load scene.target) scene.tree).1 = .error problem) :
    scene.config = .ok .standard := by
  rw [target, hsettings, Option.getD_none] at h
  rw [Scene.config, hsettings]
  simp only [h]
  rfl

/-- **A file that is named is spared, the usual one is not.**  Take a file of settings that
can be read but not used, whatever the reason is.

`config --init` leaves all files as they are if this file has been named, and tells the
reason.  If it is the usual one, its content is lost without a word: the standard settings
stand in it then. -/
theorem init_of_rejected {content : ByteArray} (hrooted : scene.tree.Rooted)
    (hread : scene.tree.read scene.target = .ok content)
    (h : (outcome (Config.load scene.target) scene.tree).1 = .error problem) :
    (∀ path, scene.settings = some path →
      scene.run (.config true) = (.failing "" (.refused problem), scene.tree)) ∧
    (scene.settings = none →
      (scene.run (.config true)).1.exitCode = 0 ∧ (scene.run (.config true)).1.errors = "" ∧
        (scene.run (.config true)).2.read scene.target
          = .ok (Config.standard : Config Float).toJson.pretty.toUTF8 ∧
        (Config.standard : Config Float).toJson.pretty.toUTF8 ≠ content) := by
  refine ⟨fun path hpath => ?_, fun hnone => ?_⟩
  · have htarget : scene.target = path := by
      rw [target, hpath, Option.getD_some]
    rw [htarget] at hread h
    exact run_init_of_named hpath hread h
  · obtain ⟨place, hstands⟩ := hrooted.exists_stands_of_read hread
    have hconfig := config_of_usual hnone h
    have hnofile :
        (loggingFor scene.verbose (Config.standard : Config Float).logging).file = none :=
      file_loggingFor scene.verbose .standard
    rw [run_init hconfig hstands, opened_of_config hconfig,
      run_openLog_none scene.reports hnofile]
    refine ⟨rfl, rfl, (hstands.put _).read, ?_⟩
    -- the standard settings can be used, so they are not what stood there
    rintro rfl
    have hfault : (Config.standard : Config Float).compiler.fault? = none := by
      decide +kernel
    rw [Config.outcome_load hread (Config.parse_pretty (by decide) hfault), hfault] at h
    cases h

/-- Settings that ask for no frames, once in the usual file and once in one that is named. -/
theorem init_of_rejected_frame_rate :
    (∃ problem, (outcome (Config.load (usual frameless).target) (usual frameless).tree).1
        = .error problem) ∧
      ((usual frameless).run (.config true)).2.read (usual frameless).target
        = .ok (Config.standard : Config Float).toJson.pretty.toUTF8 ∧
      (Scene.run { usual frameless with settings := some "xdg/reelcraft/config.json" }
        (.config true)).2 = (usual frameless).tree := by
  have hread : (usual frameless).tree.read "xdg/reelcraft/config.json" = .ok frameless.toUTF8 := by
    decide +kernel
  have hrejected :
      (outcome (Config.load "xdg/reelcraft/config.json") (usual frameless).tree).1.toBool
      = false := by
    decide +kernel
  cases hload : (outcome (Config.load "xdg/reelcraft/config.json") (usual frameless).tree).1 with
  | ok config =>
      rw [hload] at hrejected
      cases hrejected
  | error problem =>
      have htarget : (usual frameless).target = "xdg/reelcraft/config.json" := by
        decide +kernel
      obtain ⟨-, hlost⟩ :=
        init_of_rejected (rooted_usual frameless) (htarget ▸ hread) (htarget ▸ hload)
      obtain ⟨hspared, -⟩ := @init_of_rejected
        { usual frameless with settings := some "xdg/reelcraft/config.json" } problem
        frameless.toUTF8 (rooted_usual frameless) hread hload
      refine ⟨⟨problem, htarget ▸ hload⟩, (hlost rfl).2.2.1, ?_⟩
      rw [hspared _ rfl]

/-- The usual file is there and holds settings that ask for no frames.  They are refused, and
yet what the file held is gone after the run. -/
theorem init_overwrites_frameless :
    (usual frameless).tree.read (usual frameless).target = .ok frameless.toUTF8 ∧
      (outcome (Config.load (usual frameless).target) (usual frameless).tree).1.toBool = false ∧
      ((usual frameless).run (.config true)).2.read (usual frameless).target
        ≠ .ok frameless.toUTF8 := by
  decide +kernel

end Scene

end CommandLine

end Montage
