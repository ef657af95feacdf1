import Montage.Proofs.Config.RoundTrip
import Montage.Proofs.Standing

/-!
# Settings in files

The settings in a file are those in its text, unless the compiler has a fault to find in them
(`Config.outcome_load`, `Config.exists_of_load`).  Where a file stands, saving settings gives
the file their text and changes nothing else (`Config.outcome_save`).
-/

namespace Montage

/-- A file that can be read is there. -/
theorem Tree.isPresent_of_read {tree : Tree} {path : String} {content : ByteArray}
    (h : tree.read path = .ok content) : tree.isPresent path = true := by
  obtain ⟨place, hfind, -⟩ := exists_of_bind_eq_ok h
  rw [isPresent, hfind]

namespace Config

variable {path text : String} {tree after : Tree} {config : Config Float}

/-- What comes of loading the settings with a text. -/
theorem outcome_load (hread : tree.read path = .ok text.toUTF8)
    (hparse : Config.parse text = .ok config) :
    outcome (load path) tree = (match config.compiler.fault? with
      | some fault => .error fault.problem
      | none => .ok config, tree) := by
  have hpresent : outcome (FileSystem.isPresent path : ExceptT Problem (StateM Tree) Bool) tree
      = (.ok true, tree) := by
    rw [← Tree.isPresent_of_read hread]
    rfl
  rw [load, outcome_bind, hpresent]
  simp only [↓reduceIte, outcome_bind, outcome_tellingOf, outcome_readText hread, Except.mapError,
    hparse, CompilerConfig.validate]
  cases config.compiler.fault? <;> rfl

/-- Settings that are loaded have been read from a text and have no fault. -/
theorem exists_of_load (h : (outcome (load path) tree).1 = .ok config) :
    ∃ text, tree.read path = .ok text.toUTF8 ∧ Config.parse text = .ok config ∧
      config.compiler.fault? = none := by
  have hload : outcome (load path) tree = (.ok config, tree) := by
    rw [(reading_load path).outcome_eq, h]
  obtain ⟨present, between, hpresent, h⟩ := exists_of_outcome_bind hload
  obtain ⟨_, rfl⟩ := Prod.mk.inj
    (show (Except.ok (tree.isPresent path), tree) = (Except.ok present, between) from hpresent)
  cases present with
  | false => cases h
  | true =>
      simp only [↓reduceIte] at h
      obtain ⟨text, between, htext, h⟩ := exists_of_outcome_bind h
      refine ⟨text, read_of_readText (ok_of_tellingOf htext), ?_⟩
      split at h
      · cases h
      · rename_i found hparse
        rw [CompilerConfig.validate] at h
        cases hfault : found.compiler.fault? with
        | some fault =>
            simp only [hfault] at h
            cases h
        | none =>
            simp only [hfault] at h
            cases h
            exact ⟨hparse, hfault⟩

/-- Where a file can be opened, saving settings gives it their text. -/
theorem outcome_save (config : Config Float) {place : List String} (opens : tree.Opens path place) :
    outcome (config.save path) tree
      = (.ok (), tree.put place (.file config.toJson.pretty.toUTF8)) := by
  have hwrite : tree.write path config.toJson.pretty.toUTF8
      = .ok (tree.put place (.file config.toJson.pretty.toUTF8)) := by
    rw [Tree.write, opens.openFile_eq]
    rfl
  rw [save, outcome_bind, outcome_makeRoomFor opens]
  exact outcome_writeText hwrite

/-- Settings that have been saved are loaded, if they make sense. -/
theorem load_of_save (hfps : config.compiler.fps < UInt32.size)
    (hfault : config.compiler.fault? = none)
    (h : outcome (config.save path) tree = (.ok (), after)) :
    outcome (load path) after = (.ok config, after) := by
  obtain ⟨_, between, -, hwrite⟩ := exists_of_outcome_bind h
  have hread := Tree.read_of_write (write_of_writeText hwrite)
  rw [outcome_load hread (parse_pretty hfps hfault), hfault]

end Config

end Montage
