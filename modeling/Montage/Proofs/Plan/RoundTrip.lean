import Montage.Plan.Format
import Montage.Proofs.Json.Structures

/-!
# Plans are read back from their text

A plan is `Storable` when its numbers are finite and its hints are values that a text can
hold.  Plans that have been read are storable (`Plan.storable_of_parse`), and so are plans
put together from finite numbers; a storable plan is read back from its own text, in any
spacing (`Plan.parse_render`).
-/

namespace Montage

open Json

/-! ## Words -/

/-- A vocabulary whose words are told apart by their spelling. -/
class LawfulVocabulary (β : Type) [Vocabulary β] : Prop where
  find?_word : ∀ b : β, Vocabulary.find? (Vocabulary.word b) = some b

instance : LawfulVocabulary Transition := ⟨fun transition => by cases transition <;> rfl⟩

instance : LawfulVocabulary Effect := ⟨fun effect => by cases effect <;> rfl⟩

instance : LawfulVocabulary Filter := ⟨fun filter => by cases filter <;> rfl⟩

instance : LawfulVocabulary Position := ⟨fun position => by cases position <;> rfl⟩

/-- A word of a vocabulary is read back from its spelling. -/
theorem readWord_wordJson {β : Type} [Vocabulary β] [LawfulVocabulary β] (b : β) (place : Place) :
    readWord place (outlineOf (wordJson b)) = .ok b := by
  change wordOf (Vocabulary.word b) = .ok b
  rw [wordOf, LawfulVocabulary.find?_word]

/-! ## The parts of a plan -/

/-- A pair of transitions is read back from what it is written as. -/
theorem TransitionPair.read_toJson (pair : TransitionPair) {place : Place}
    (hroom : 0 < place.levels) :
    TransitionPair.schema.read place (outlineOf pair.toJson) = .ok pair := by
  obtain ⟨inner, hinner⟩ := Place.exists_enter hroom
  refine Schema.read_written TransitionPair.schema
    [some (wordJson pair.entry), some (wordJson pair.exit)] rfl (by decide) hinner ?_
  exact .of (readWord_wordJson _ _) (.of (readWord_wordJson _ _) .done)

/-- A clip that a text can hold, its hints nested at most `levels` deep. -/
structure Clip.Storable (levels : ℕ) (clip : Clip Float) : Prop where
  trimStart : Scalar.isFinite clip.trimStart = true
  length : Scalar.isFinite clip.length = true
  hints : ∀ hints, clip.hints = some hints → hints ≠ .null ∧ Json.Storable levels hints

/-- A clip that can be stored is read back from what it is written as; its hints take the
levels below it. -/
theorem Clip.read_toJson {levels : ℕ} {clip : Clip Float} (h : clip.Storable levels)
    (hroom : 0 < levels) {place : Place} (hlevels : place.levels = levels + 1) :
    Clip.schema.read place (outlineOf clip.toJson) = .ok clip := by
  have hinner : place.enter = .ok ⟨levels, place.stop⟩ := Place.enter_eq_ok_iff.mpr ⟨hlevels, rfl⟩
  have hwritten : clip.toJson = Clip.schema.written [
      some (.str clip.sourceReference),
      some (.real clip.trimStart),
      some (.real clip.length),
      clip.effect.map wordJson,
      clip.filter.map wordJson,
      clip.transition.map TransitionPair.toJson,
      clip.hints.map id] := by
    rw [Option.map_id]
    rfl
  rw [hwritten]
  refine Schema.read_written Clip.schema _ rfl (by decide) hinner ?_
  refine .of rfl (.of (readReal_real h.trimStart _) (.of (readReal_real h.length _) ?_))
  refine .optional (fun effect _ => ⟨Outline.noConfusion, readWord_wordJson effect _⟩) rfl ?_
  refine .optional (fun filter _ => ⟨Outline.noConfusion, readWord_wordJson filter _⟩) rfl ?_
  refine .optional (fun pair _ => ⟨Outline.noConfusion, pair.read_toJson hroom⟩) rfl ?_
  refine .optional (fun hints hhints => ?_) rfl .done
  obtain ⟨hne, hstorable⟩ := h.hints hints hhints
  exact ⟨outlineOf_ne_null hstorable hne, readAny_outlineOf hstorable _ rfl⟩

/-- A caption that a text can hold. -/
structure Overlay.Storable (overlay : Overlay Float) : Prop where
  start : Scalar.isFinite overlay.start = true
  duration : Scalar.isFinite overlay.duration = true

/-- A caption that can be stored is read back from what it is written as. -/
theorem Overlay.read_toJson {overlay : Overlay Float} (h : overlay.Storable) {place : Place}
    (hroom : 0 < place.levels) :
    Overlay.schema.read place (outlineOf overlay.toJson) = .ok overlay := by
  obtain ⟨inner, hinner⟩ := Place.exists_enter hroom
  refine Schema.read_written Overlay.schema [
    some (.str overlay.text),
    some (.real overlay.start),
    some (.real overlay.duration),
    some (wordJson overlay.position)] rfl (by decide) hinner ?_
  exact .of rfl (.of (readReal_real h.start _) (.of (readReal_real h.duration _)
    (.of (readWord_wordJson _ _) .done)))

/-- Music that a text can hold. -/
def Music.Storable (music : Music Float) : Prop :=
  ∀ volume, music.volume = some volume → Scalar.isFinite volume = true

/-- Music that can be stored is read back from what it is written as. -/
theorem Music.read_toJson {music : Music Float} (h : music.Storable) {place : Place}
    (hroom : 0 < place.levels) :
    Music.schema.read place (outlineOf music.toJson) = .ok music := by
  obtain ⟨inner, hinner⟩ := Place.exists_enter hroom
  refine Schema.read_written Music.schema [
    some (.str music.sourceReference),
    music.volume.map .real] rfl (by decide) hinner ?_
  refine .of rfl (.optional (fun volume hvolume => ?_) rfl .done)
  have hfinite := h volume hvolume
  obtain ⟨numeral, hnumeral, -⟩ := outlineOf_real hfinite
  refine ⟨?_, readReal_real hfinite _⟩
  rw [hnumeral]
  exact Outline.noConfusion

/-! ## Plans -/

/-- How deep hints may be nested: the plan, the list of its clips and the clip itself stand
around them. -/
def hintLevels : ℕ := deepest - 3

/-- A plan that a text can hold. -/
structure Plan.Storable (plan : Plan Float) : Prop where
  clips : ∀ clip ∈ plan.clips, clip.Storable hintLevels
  overlays : ∀ overlay ∈ plan.overlays, overlay.Storable
  music : ∀ music, plan.music = some music → music.Storable

/-- A plan that can be stored is read back from what it is written as, at the outermost level
of a document. -/
theorem Plan.read_toJson {plan : Plan Float} (h : plan.Storable) {place : Place}
    (hlevels : place.levels = deepest) :
    Plan.schema.read place (outlineOf plan.toJson) = .ok plan := by
  have hinner : place.enter = .ok ⟨126, place.stop⟩ := Place.enter_eq_ok_iff.mpr ⟨hlevels, rfl⟩
  have hlist : Place.enter ⟨126, place.stop⟩ = .ok ⟨125, place.stop⟩ := rfl
  refine Schema.read_written Plan.schema [
    some (.str plan.mode),
    some (.str plan.platform),
    some (.arr (plan.clips.map Clip.toJson)),
    some (.arr (plan.overlays.map Overlay.toJson)),
    plan.music.map Music.toJson] rfl (by decide) hinner ?_
  have hclips : readList Clip.schema.read ⟨126, place.stop⟩
      (outlineOf (.arr (plan.clips.map Clip.toJson))) = .ok plan.clips :=
    readList_arr hlist fun clip hclip =>
      Clip.read_toJson (h.clips clip hclip) (Nat.succ_pos 123) rfl
  have hoverlays : readList Overlay.schema.read ⟨126, place.stop⟩
      (outlineOf (.arr (plan.overlays.map Overlay.toJson))) = .ok plan.overlays :=
    readList_arr hlist fun overlay hoverlay =>
      Overlay.read_toJson (h.overlays overlay hoverlay) (Nat.succ_pos 124)
  refine .of rfl (.of rfl (.of hclips (.of hoverlays ?_)))
  refine .optional (fun music hmusic => ?_) rfl .done
  exact ⟨Outline.noConfusion, Music.read_toJson (h.music music hmusic) (Nat.succ_pos 125)⟩

/-- A storable plan is read back from its text, in any spacing. -/
theorem Plan.parse_render {plan : Plan Float} (h : plan.Storable) {spacing : Spacing}
    (hspacing : spacing.Blank) : Plan.parse (plan.toJson.render spacing) = .ok plan := by
  rw [Plan.parse, Json.parse_render hspacing]
  exact Plan.read_toJson h rfl

/-! ## What is read can be written -/

theorem isFinite_zero : Scalar.isFinite (Scalar.whole 0 : Float) = true := by
  rw [Double.isFinite_exact, Double.exact_zero]
  rfl

/-- A clip that was read can be stored: its numbers are finite and its hints no deeper than
the reader goes. -/
theorem Clip.storable_of_read {place : Place} {levels : ℕ} (hlevels : place.levels = levels + 1)
    {outline : Outline} {clip : Clip Float} (h : Clip.schema.read place outline = .ok clip) :
    clip.Storable levels := by
  have hblank : (Clip.ofLength "" 0 : Clip Float).Storable levels :=
    ⟨isFinite_zero, isFinite_zero, fun _ hhints => nomatch hhints⟩
  refine Schema.holds_of_read Clip.schema (Clip.Storable levels) hblank ?_ h
  intro inner hinner field hfield
  have hroom : inner.levels = levels := by omega
  simp only [Clip.schema, List.mem_cons, List.not_mem_nil, or_false] at hfield
  rcases hfield with rfl | rfl | rfl | rfl | rfl | rfl | rfl
  · exact Field.keeps_of fun _ _ _ _ hwhole => ⟨hwhole.trimStart, hwhole.length, hwhole.hints⟩
  · exact Field.keeps_of fun _ _ hread _ hwhole =>
      ⟨isFinite_of_readReal hread, hwhole.length, hwhole.hints⟩
  · exact Field.keeps_of fun _ _ hread _ hwhole =>
      ⟨hwhole.trimStart, isFinite_of_readReal hread, hwhole.hints⟩
  · exact Field.keeps_of fun _ _ _ _ hwhole => ⟨hwhole.trimStart, hwhole.length, hwhole.hints⟩
  · exact Field.keeps_of fun _ _ _ _ hwhole => ⟨hwhole.trimStart, hwhole.length, hwhole.hints⟩
  · exact Field.keeps_of fun _ _ _ _ hwhole => ⟨hwhole.trimStart, hwhole.length, hwhole.hints⟩
  · refine Field.keeps_of fun _ _ hread _ hwhole =>
      ⟨hwhole.trimStart, hwhole.length, fun hints hhints => ?_⟩
    obtain rfl : _ = some hints := hhints
    obtain ⟨hne, hany⟩ := exists_of_readOptional hread
    exact ⟨ne_null_of_readAny hany hne, hroom ▸ storable_of_readAny inner _ hany⟩

/-- A caption that was read can be stored. -/
theorem Overlay.storable_of_read {place : Place} {outline : Outline} {overlay : Overlay Float}
    (h : Overlay.schema.read place outline = .ok overlay) : overlay.Storable := by
  have hblank : (Overlay.ofSpan "" 0 0 : Overlay Float).Storable := ⟨isFinite_zero, isFinite_zero⟩
  refine Schema.holds_of_read Overlay.schema Overlay.Storable hblank ?_ h
  intro inner _ field hfield
  simp only [Overlay.schema, List.mem_cons, List.not_mem_nil, or_false] at hfield
  rcases hfield with rfl | rfl | rfl | rfl
  · exact Field.keeps_of fun _ _ _ _ hwhole => ⟨hwhole.start, hwhole.duration⟩
  · exact Field.keeps_of fun _ _ hread _ hwhole => ⟨isFinite_of_readReal hread, hwhole.duration⟩
  · exact Field.keeps_of fun _ _ hread _ hwhole => ⟨hwhole.start, isFinite_of_readReal hread⟩
  · exact Field.keeps_of fun _ _ _ _ hwhole => ⟨hwhole.start, hwhole.duration⟩

/-- Music that was read can be stored. -/
theorem Music.storable_of_read {place : Place} {outline : Outline} {music : Music Float}
    (h : Music.schema.read place outline = .ok music) : music.Storable := by
  have hblank : (Music.ofReference "" : Music Float).Storable := fun _ hvolume => nomatch hvolume
  refine Schema.holds_of_read Music.schema Music.Storable hblank ?_ h
  intro inner _ field hfield
  simp only [Music.schema, List.mem_cons, List.not_mem_nil, or_false] at hfield
  rcases hfield with rfl | rfl
  · exact Field.keeps_of fun _ _ _ _ hwhole => hwhole
  · refine Field.keeps_of fun _ _ hread _ _ volume hvolume => ?_
    obtain rfl : _ = some volume := hvolume
    exact isFinite_of_readReal (exists_of_readOptional hread).2

/-- A plan that was read from a document can be stored. -/
theorem Plan.storable_of_read {place : Place} (hlevels : place.levels = deepest)
    {outline : Outline} {plan : Plan Float} (h : Plan.schema.read place outline = .ok plan) :
    plan.Storable := by
  have hblank : (Plan.empty "" "" : Plan Float).Storable :=
    ⟨(fun _ hclip => nomatch hclip), (fun _ hoverlay => nomatch hoverlay),
      (fun _ hmusic => nomatch hmusic)⟩
  refine Schema.holds_of_read Plan.schema Plan.Storable hblank ?_ h
  intro inner hinner field hfield
  have hroom : inner.levels = 126 := by
    rw [hlevels] at hinner
    exact (Nat.succ.inj hinner).symm
  simp only [Plan.schema, List.mem_cons, List.not_mem_nil, or_false] at hfield
  rcases hfield with rfl | rfl | rfl | rfl | rfl
  · exact Field.keeps_of fun _ _ _ _ hwhole => ⟨hwhole.clips, hwhole.overlays, hwhole.music⟩
  · exact Field.keeps_of fun _ _ _ _ hwhole => ⟨hwhole.clips, hwhole.overlays, hwhole.music⟩
  · refine Field.keeps_of fun _ _ hread _ hwhole =>
      ⟨fun clip hclip => ?_, hwhole.overlays, hwhole.music⟩
    obtain ⟨deeper, item, hdeeper, hitem⟩ := exists_of_readList hread clip hclip
    have hlevel : deeper.levels = hintLevels + 1 := by
      change deeper.levels = 125
      omega
    exact Clip.storable_of_read hlevel hitem
  · refine Field.keeps_of fun _ _ hread _ hwhole =>
      ⟨hwhole.clips, fun overlay hoverlay => ?_, hwhole.music⟩
    obtain ⟨deeper, item, -, hitem⟩ := exists_of_readList hread overlay hoverlay
    exact Overlay.storable_of_read hitem
  · refine Field.keeps_of fun _ _ hread _ hwhole =>
      ⟨hwhole.clips, hwhole.overlays, fun music hmusic => ?_⟩
    obtain rfl : _ = some music := hmusic
    exact Music.storable_of_read (exists_of_readOptional hread).2

/-- Whatever text a plan is read from, it can be written. -/
theorem Plan.storable_of_parse {text : String} {plan : Plan Float}
    (h : Plan.parse text = .ok plan) : plan.Storable := by
  obtain ⟨value, hvalue, h⟩ := exists_of_bind_eq_ok h
  split at h
  · cases h
  · cases h
    exact Plan.storable_of_read rfl hvalue

end Montage
