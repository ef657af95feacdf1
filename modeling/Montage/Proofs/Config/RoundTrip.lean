import Montage.Config.Format
import Montage.Proofs.Json.Structures
import Montage.Proofs.Overflow

/-!
# Settings are read back from their text

Settings are `Storable` when their frame rate fits its field and the compiler has no fault to
find in them, so that their numbers are finite.  Storable settings are read back from their
own text, in any spacing (`Config.parse_render`).  Settings that are read from a text always
have a frame rate that fits (`Config.fps_lt_of_parse`), so those without a fault are
storable.
-/

namespace Montage

open Json

/-! ## Numbers -/

/-- A count that fits its field is read. -/
theorem readCount_nat {n : ℕ} (h : n < UInt32.size) (place : Place) :
    readCount place (outlineOf (.nat n)) = .ok n := by
  have hvalue : (intNumeral n).value = .integer n := by
    refine value_intNumeral ?_ ?_ <;> simp only [UInt32.size] at h <;> omega
  rw [Json.nat, outlineOf, readCount, hvalue]
  exact if_pos ⟨Int.natCast_nonneg n, by exact_mod_cast h⟩

/-- A count that is read fits its field. -/
theorem lt_of_readCount {place : Place} {outline : Outline} {n : ℕ}
    (h : readCount place outline = .ok n) : n < UInt32.size := by
  cases outline with
  | number numeral =>
      rw [readCount] at h
      split at h
      · split at h
        · rename_i value _ hrange
          cases h
          omega
        · cases h
      · exact absurd h ne_ok_mismatch
  | _ => exact absurd h ne_ok_mismatch

/-! ## The parts of the settings -/

/-- Settings of the compiler that a text can hold. -/
structure CompilerConfig.Storable (config : CompilerConfig Float) : Prop where
  fps : config.fps < UInt32.size
  margin : ∀ which, Scalar.isFinite (config.margin which) = true
  level : ∀ which, Scalar.isFinite (config.level which) = true

/-- Settings of the compiler that make sense can be stored: their numbers are finite. -/
theorem CompilerConfig.storable_of_fault?_eq_none {config : CompilerConfig Float}
    (hfps : config.fps < UInt32.size) (h : config.fault? = none) : config.Storable := by
  refine ⟨hfps, fun which => ?_, CompilerConfig.isFinite_level h⟩
  have hmargin := (CompilerConfig.fault?_eq_none_iff.mp h).2.1 which
  rw [isMargin, Bool.and_eq_true] at hmargin
  exact hmargin.1

/-- The settings of the compiler are read from what they are written as. -/
theorem CompilerConfig.read_toJson {config : CompilerConfig Float} (h : config.Storable)
    {place : Place} (hroom : 0 < place.levels) :
    CompilerConfig.schema.read place (outlineOf config.toJson) = .ok config := by
  obtain ⟨inner, hinner⟩ := Place.exists_enter hroom
  refine Schema.read_written CompilerConfig.schema [
    some (.nat config.fps),
    some (.real config.overlayLookback),
    some (.real config.minOverlay),
    some (.real config.backgroundTail),
    some (.real config.duckedClipVolume),
    some (.real config.textMusicDuck)] rfl (by decide) hinner ?_
  refine .of (readCount_nat h.fps _) ?_
  refine .of (readReal_real (h.margin .overlayLookback) _) ?_
  refine .of (readReal_real (h.margin .minOverlay) _) ?_
  refine .of (readReal_real (h.margin .backgroundTail) _) ?_
  refine .of (readReal_real (h.level .duckedClipVolume) _) ?_
  exact .of (readReal_real (h.level .textMusicDuck) _) .done

/-- The settings of the log are read from what they are written as. -/
theorem LoggingConfig.read_toJson (config : LoggingConfig) {place : Place}
    (hroom : 0 < place.levels) :
    LoggingConfig.schema.read place (outlineOf (config.toJson)) = .ok config := by
  obtain ⟨inner, hinner⟩ := Place.exists_enter hroom
  refine Schema.read_written LoggingConfig.schema [
    some (.str config.level),
    some (.bool config.json),
    some (.ofOption .str config.file)] rfl (by decide) hinner ?_
  refine .of rfl (.of rfl (.of ?_ .done))
  cases config.file <;> rfl

/-! ## All settings -/

/-- All settings are read from what they are written as. -/
theorem Config.read_toJson {config : Config Float} (h : config.compiler.Storable) {place : Place}
    (hroom : 1 < place.levels) :
    Config.schema.read place (outlineOf config.toJson) = .ok config := by
  obtain ⟨inner, hinner⟩ := Place.exists_enter (Nat.lt_of_succ_lt hroom)
  have hlevels : 0 < inner.levels := by
    have := (Place.enter_eq_ok_iff.mp hinner).1
    omega
  refine Schema.read_written Config.schema [
    some config.compiler.toJson, some config.logging.toJson] rfl (by decide) hinner ?_
  exact .of (CompilerConfig.read_toJson h hlevels) (.of (config.logging.read_toJson hlevels) .done)

/-- Storable settings are read back from their text, in any spacing. -/
theorem Config.parse_render {config : Config Float} (h : config.compiler.Storable)
    {spacing : Spacing} (hspacing : spacing.Blank) :
    Config.parse (config.toJson.render spacing) = .ok config := by
  rw [Config.parse, Json.parse_render hspacing]
  exact Config.read_toJson h (by decide)

/-- Settings without a fault are read back from the text they are saved as. -/
theorem Config.parse_pretty {config : Config Float} (hfps : config.compiler.fps < UInt32.size)
    (hfault : config.compiler.fault? = none) : Config.parse config.toJson.pretty = .ok config :=
  Config.parse_render (CompilerConfig.storable_of_fault?_eq_none hfps hfault)
    Json.Spacing.blank_pretty

/-! ## What is read -/

/-- A frame rate that has been read fits its field. -/
theorem CompilerConfig.fps_lt_of_read {place : Place} {outline : Outline}
    {config : CompilerConfig Float} (h : CompilerConfig.schema.read place outline = .ok config) :
    config.fps < UInt32.size := by
  refine Schema.holds_of_read CompilerConfig.schema (fun config => config.fps < UInt32.size)
    (by decide) ?_ h
  intro inner _ field hfield
  simp only [CompilerConfig.schema, List.mem_cons, List.not_mem_nil, or_false] at hfield
  rcases hfield with rfl | rfl | rfl | rfl | rfl | rfl
  · exact Field.keeps_of fun _ _ hread _ _ => lt_of_readCount hread
  all_goals exact Field.keeps_of fun _ _ _ _ hwhole => hwhole

/-- The frame rate of settings that have been read fits its field. -/
theorem Config.fps_lt_of_parse {text : String} {config : Config Float}
    (h : Config.parse text = .ok config) : config.compiler.fps < UInt32.size := by
  obtain ⟨value, hvalue, h⟩ := exists_of_bind_eq_ok h
  split at h
  · cases h
  · cases h
    refine Schema.holds_of_read Config.schema (fun config => config.compiler.fps < UInt32.size)
      (by decide) ?_ hvalue
    intro inner _ field hfield
    simp only [Config.schema, List.mem_cons, List.not_mem_nil, or_false] at hfield
    rcases hfield with rfl | rfl
    · exact Field.keeps_of fun _ _ hread _ _ => CompilerConfig.fps_lt_of_read hread
    · exact Field.keeps_of fun _ _ _ _ hwhole => hwhole

end Montage
