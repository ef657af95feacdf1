import Montage.Files.Stored
import Montage.Proofs.Files

/-!
# Texts in files

A text is written as its bytes and read from them (`write_of_writeText`,
`outcome_readText`).  Reading texts, settings and plans leaves the files alone, whatever
comes of it.
-/

namespace Montage

section

variable {σ ε ε' β : Type}

/-- Telling of an error in other words changes the error alone, not the state. -/
theorem outcome_tellingOf (tell : ε → ε') (action : ExceptT ε (StateM σ) β) (state : σ) :
    outcome (tellingOf tell action) state = ((outcome action state).1.mapError tell,
      (outcome action state).2) := by
  simp only [outcome, tellingOf, ExceptT.run_mk, StateT.run_bind]
  rcases action.run.run state with ⟨fault | b, between⟩ <;> rfl

theorem fromUTF8?_toUTF8 (text : String) : String.fromUTF8? text.toUTF8 = some text := by
  rw [String.fromUTF8?, String.toUTF8_eq_toByteArray, dif_pos text.isValidUTF8]
  rfl

/-- Bytes that are read as a text are the bytes of that text. -/
theorem toUTF8_of_fromUTF8? {bytes : ByteArray} {text : String}
    (h : String.fromUTF8? bytes = some text) : text.toUTF8 = bytes := by
  rw [String.fromUTF8?] at h
  split at h
  · cases h
    rfl
  · cases h

/-- A success in other words was a success. -/
theorem ok_of_tellingOf {tell : ε → ε'} {action : ExceptT ε (StateM σ) β} {state after : σ} {b : β}
    (h : outcome (tellingOf tell action) state = (.ok b, after)) :
    outcome action state = (.ok b, after) := by
  rw [outcome_tellingOf] at h
  generalize outcome action state = result at h ⊢
  rcases result with ⟨fault | b, between⟩ <;> cases h
  rfl

/-- A text is written as its bytes. -/
theorem outcome_writeText_eq (path text : String) (tree : Tree) :
    outcome (FileSystem.writeText path text) tree
      = Tree.attempt (·.write path text.toUTF8) tree := rfl

/-- A text that was written is a write of its bytes to the tree. -/
theorem write_of_writeText {path text : String} {tree after : Tree}
    (h : outcome (FileSystem.writeText path text) tree = (.ok (), after)) :
    tree.write path text.toUTF8 = .ok after := by
  rw [outcome_writeText_eq, Tree.attempt] at h
  cases hwrite : tree.write path text.toUTF8 with
  | ok next =>
      rw [hwrite] at h
      cases h
      rfl
  | error fault =>
      rw [hwrite] at h
      cases h

/-- A write of the bytes to the tree is a text written. -/
theorem outcome_writeText {path text : String} {tree after : Tree}
    (h : tree.write path text.toUTF8 = .ok after) :
    outcome (FileSystem.writeText path text) tree = (.ok (), after) := by
  rw [outcome_writeText_eq, Tree.attempt, h]

/-- A file with a text is read as that text. -/
theorem outcome_readText {path text : String} {tree : Tree}
    (h : tree.read path = .ok text.toUTF8) :
    outcome (FileSystem.readText path) tree = (.ok text, tree) := by
  have hread : outcome (ExceptT.mk (FileSystem.read path)) tree = (.ok text.toUTF8, tree) := by
    rw [← h]
    rfl
  rw [FileSystem.readText, outcome_bind, hread]
  simp only [fromUTF8?_toUTF8]
  rfl

/-- A text that is read is the one whose bytes the file holds. -/
theorem read_of_readText {path text : String} {tree after : Tree}
    (h : outcome (FileSystem.readText path) tree = (.ok text, after)) :
    tree.read path = .ok text.toUTF8 := by
  obtain ⟨bytes, between, hread, h⟩ := exists_of_outcome_bind h
  obtain ⟨hbytes, rfl⟩ := Prod.mk.inj
    (show (tree.read path, tree) = (Except.ok bytes, between) from hread)
  rw [hbytes]
  split at h
  · rename_i found hfound
    cases h
    rw [toUTF8_of_fromUTF8? hfound]
  · cases h

/-- An action whose result counts as a success has succeeded. -/
theorem exists_of_toBool {action : ExceptT ε (StateM σ) Unit} {state : σ}
    (h : (outcome action state).1.toBool = true) :
    ∃ after, outcome action state = (.ok (), after) := by
  rcases hrun : outcome action state with ⟨fault | done, after⟩
  · rw [hrun] at h
    cases h
  · exact ⟨after, rfl⟩

end

/-! ## Reading leaves the files alone -/

/-- An action that only reads still does so when its errors are told in other words. -/
theorem Reading.tellingOf {σ ε ε' β : Type} {action : ExceptT ε (StateM σ) β}
    (h : Reading action) (tell : ε → ε') : Reading (tellingOf tell action) := by
  intro state
  rw [outcome_tellingOf]
  exact h state

/-- Reading a text only reads. -/
theorem FileSystem.reading_readText (path : String) :
    Reading (FileSystem.readText path : ExceptT FileFault (StateM Tree) String) := by
  refine Reading.bind (fun _ => rfl) fun bytes => ?_
  split
  · exact .pure _
  · exact .throw _

/-- Loading a plan only reads. -/
theorem Plan.reading_load (path : String) :
    Reading (Plan.load path : ExceptT PlanFileProblem (StateM Tree) (Plan Float)) := by
  refine ((FileSystem.reading_readText path).tellingOf _).bind fun text => ?_
  split
  · exact .throw _
  · split
    · exact .throw _
    · exact .pure _

/-- Loading settings only reads. -/
theorem Config.reading_load (path : String) :
    Reading (Config.load path : ExceptT Problem (StateM Tree) (Config Float)) := by
  refine Reading.bind (fun _ => rfl) fun present => ?_
  cases present with
  | false => exact .throw _
  | true =>
      simp only [↓reduceIte]
      refine ((FileSystem.reading_readText path).tellingOf _).bind fun text => ?_
      split
      · exact .throw _
      · split
        · exact .throw _
        · exact .pure _

/-! ## Settings that need not be there

The usual settings are read by a part of the program that can fail; whether it does is not
told to the rest. -/

section

variable {σ ε ε' ε'' β : Type}

/-- An embedded action stays embedded when errors are told in other words. -/
theorem Embeds.tellingOf {inner : ExceptT ε (ExceptT ε' (StateM σ)) β}
    {action : ExceptT ε (StateM σ) β} (h : Embeds inner action) (tell : ε → ε'') :
    Embeds (tellingOf tell inner) (tellingOf tell action) := by
  intro state
  change outcome (inner.run >>= _) state = _
  rw [outcome_bind, h, outcome_tellingOf]
  rcases outcome action state with ⟨fault | b, between⟩ <;> rfl

/-- Reading a text is the same inside a computation that can fail once more. -/
theorem FileSystem.embeds_readText (path : String) :
    Embeds (FileSystem.readText path : ExceptT FileFault (ExceptT ε (StateM Tree)) String)
      (FileSystem.readText path) := by
  refine Embeds.bind (fun _ => rfl) fun bytes => ?_
  split <;> exact fun _ => rfl

/-- Loading settings is the same inside a computation that can fail once more. -/
theorem Config.embeds_load (path : String) :
    Embeds (Config.load path : ExceptT Problem (ExceptT ε (StateM Tree)) (Config Float))
      (Config.load path) := by
  refine Embeds.bind (fun _ => rfl) fun present => ?_
  cases present with
  | false => exact fun _ => rfl
  | true =>
      simp only [↓reduceIte]
      refine ((FileSystem.embeds_readText path).tellingOf _).bind fun text => ?_
      split
      · exact fun _ => rfl
      · split <;> exact fun _ => rfl

/-- The usual settings are the standard ones if they cannot be read. -/
theorem Config.outcome_loadUsual (environment : Environment) (tree : Tree) :
    outcome (Config.loadUsual environment : ExceptT ε (StateM Tree) (Config Float)) tree
      = (.ok ((outcome (Config.load environment.configFile) tree).1.toOption.getD .standard),
          tree) := by
  rw [Config.loadUsual, outcome_bind, Config.embeds_load,
    (Config.reading_load environment.configFile).outcome_eq]
  cases (outcome (Config.load environment.configFile) tree).1 <;> rfl

end

end Montage
