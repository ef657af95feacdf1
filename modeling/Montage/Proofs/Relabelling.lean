import Montage.Proofs.Twice

/-!
# What names and texts can change

The names of media files, the texts of captions and the hints on clips are carried along
and never looked into.  A plan with other names and texts (`Plan.relabeled`) is refused for
the same reason, or has the same layout and the same payloads with the other names and texts
in them.  Names may become equal or different, and texts may become empty: the two functions
that change them are arbitrary.  Hints can be anything, for they are nowhere in a layout.

In the JSON of a payload the names stand under `src` and the texts under `text`, and nothing
else stands there: `TrackPayload.toJson_relabeled` and `FramePayload.toJson_relabeled` say
that changing them in the payload is changing the strings under these two keys.

`Compiler.names_are_opaque` is the statement about the compiler.
-/

namespace Montage

/-! ## Other names and texts -/

section Relabeled

variable {α : Type} (f g : String → String)

def Clip.relabeled (hints : Option (Json α)) (clip : Clip α) : Clip α :=
  { clip with sourceReference := f clip.sourceReference, hints }

def Overlay.relabeled (overlay : Overlay α) : Overlay α := { overlay with text := g overlay.text }

def Music.relabeled (music : Music α) : Music α :=
  { music with sourceReference := f music.sourceReference }

/-- A plan with other names for its media, other texts on its captions and, at each index,
other hints. -/
def Plan.relabeled (hints : ℕ → Option (Json α)) (plan : Plan α) : Plan α :=
  { plan with
    clips := plan.clips.mapIdx fun index clip => clip.relabeled f (hints index)
    overlays := plan.overlays.map (·.relabeled g)
    music := plan.music.map (·.relabeled f) }

def ClipPlacement.relabeled (clip : ClipPlacement α) : ClipPlacement α :=
  { clip with sourceReference := f clip.sourceReference }

def OverlayPlacement.relabeled (overlay : OverlayPlacement α) : OverlayPlacement α :=
  { overlay with text := g overlay.text }

def Soundtrack.relabeled (soundtrack : Soundtrack α) : Soundtrack α :=
  { soundtrack with sourceReference := f soundtrack.sourceReference }

/-- A layout with other names and texts; its warnings have neither. -/
def Layout.relabeled (layout : Layout α) : Layout α :=
  { layout with
    clips := layout.clips.map (·.relabeled f)
    overlays := layout.overlays.map (·.relabeled g)
    soundtrack := layout.soundtrack.map (·.relabeled f) }

def Asset.relabeled : Asset α → Asset α
  | .title text style color size position => .title (g text) style color size position
  | .video source trim volume => .video (f source) trim volume
  | .page width height background => .page width height background

def TrackClip.relabeled (clip : TrackClip α) : TrackClip α :=
  { clip with asset := clip.asset.relabeled f g }

def Track.relabeled (track : Track α) : Track α :=
  { track with clips := track.clips.map (·.relabeled f g) }

/-- A payload in seconds with other names and texts. -/
def TrackPayload.relabeled (payload : TrackPayload α) : TrackPayload α :=
  { payload with
    soundtrack := payload.soundtrack.map (·.relabeled f)
    tracks := payload.tracks.map (·.relabeled f g) }

def FrameSequence.relabeled (sequence : FrameSequence α) : FrameSequence α :=
  { sequence with source := f sequence.source }

def FrameOverlay.relabeled (overlay : FrameOverlay) : FrameOverlay :=
  { overlay with text := g overlay.text }

def FrameMusic.relabeled (music : FrameMusic α) : FrameMusic α :=
  { music with source := f music.source }

/-- A payload in frames with other names and texts. -/
def FramePayload.relabeled (payload : FramePayload α) : FramePayload α :=
  { payload with
    sequences := payload.sequences.map (·.relabeled f)
    overlays := payload.overlays.map (·.relabeled g)
    music := payload.music.map (·.relabeled f) }

end Relabeled

/-! ## From the plan to the layout -/

namespace Layout

variable {α : Type} [Scalar α] (f g : String → String) (hints : ℕ → Option (Json α))

omit [Scalar α] in
/-- A field that relabelling leaves alone is the same along the clips of both plans. -/
theorem map_relabeled_clips {β : Type} {field : Clip α → β}
    (h : ∀ hints clip, field (clip.relabeled f hints) = field clip) (plan : Plan α) :
    (plan.relabeled f g hints).clips.map field = plan.clips.map field := by
  apply List.ext_getElem?
  intro k
  simp only [Plan.relabeled, List.getElem?_map, List.getElem?_mapIdx, Option.map_map,
    Function.comp_def, h]

/-- The schedule does not look at names. -/
theorem estimateClips_relabeled (transition : α) (plan : Plan α) :
    Schedule.estimateClips transition (plan.relabeled f g hints).clips
      = Schedule.estimateClips transition plan.clips := by
  apply Schedule.estimateClips_congr
  · exact map_relabeled_clips f g hints (fun _ _ => rfl) plan
  · exact map_relabeled_clips f g hints (fun _ _ => rfl) plan

omit [Scalar α] in
/-- Placing relabelled clips relabels the placed clips. -/
theorem placeClips_relabeled (profile : ModeProfile α) (volume : α) (plan : Plan α)
    (starts : List α) :
    placeClips profile volume 0 (plan.relabeled f g hints).clips starts =
      (placeClips profile volume 0 plan.clips starts).map (·.relabeled f) := by
  apply List.ext_getElem?
  intro k
  simp only [Plan.relabeled, List.getElem?_map, placeClips_getElem?, List.getElem?_mapIdx]
  cases plan.clips[k]? with
  | none => rfl
  | some clip =>
      cases starts[k]? with
      | none => rfl
      | some start => rfl

/-- Placing relabelled captions relabels the placed captions. -/
theorem placeOverlays_relabeled (profile : ModeProfile α) (clamp : Clamp α) (video : α)
    (count : ℕ) (plan : Plan α) :
    ((plan.relabeled f g hints).overlays.zipIdx.map fun (overlay, index) =>
        placeOverlay profile clamp video count index overlay) =
      (plan.overlays.zipIdx.map fun (overlay, index) =>
        placeOverlay profile clamp video count index overlay).map (·.relabeled g) := by
  rw [Plan.relabeled, List.zipIdx_map, List.map_map, List.map_map]
  rfl

/-- No warning about a caption depends on its text. -/
theorem overlayWarnings_relabeled (clamp : Clamp α) (video : α) (plan : Plan α) :
    overlayWarnings clamp video (plan.relabeled f g hints).overlays
      = overlayWarnings clamp video plan.overlays := by
  rw [overlayWarnings, overlayWarnings, Plan.relabeled, List.zipIdx_map, List.filterMap_map]
  rfl

omit [Scalar α] in
/-- The volume of clips depends on whether there is music, not on its name. -/
theorem clipVolume_relabeled (profile : ModeProfile α) (config : CompilerConfig α)
    (plan : Plan α) :
    clipVolume profile config (plan.relabeled f g hints) = clipVolume profile config plan := by
  have hmusic : (plan.relabeled f g hints).hasMusic = plan.hasMusic := Option.isSome_map ..
  rw [clipVolume, clipVolume, hmusic]

/-- The soundtrack of a relabelled plan is the relabelled soundtrack. -/
theorem soundtrackOf_relabeled (profile : ModeProfile α) (config : CompilerConfig α)
    (plan : Plan α) :
    soundtrackOf profile config (plan.relabeled f g hints) =
      (soundtrackOf profile config plan).map (·.relabeled f) := by
  have hvolume : musicVolume profile config (plan.relabeled f g hints)
      = musicVolume profile config plan := by
    simp only [musicVolume, Plan.relabeled, List.isEmpty_map]
  rw [soundtrackOf, soundtrackOf, hvolume, Plan.relabeled, Option.map_map, Option.map_map]
  rfl

/-- Assembling a relabelled plan relabels the layout. -/
theorem assemble_relabeled (plan : Plan α) (modeKey platformKey : String)
    (config : CompilerConfig α) (schedule : Schedule α) :
    assemble (plan.relabeled f g hints) modeKey platformKey config schedule
      = (assemble plan modeKey platformKey config schedule).relabeled f g := by
  have hcount : (plan.relabeled f g hints).overlays.length = plan.overlays.length :=
    List.length_map _
  dsimp only [assemble, relabeled]
  rw [clipVolume_relabeled, placeClips_relabeled, soundtrackOf_relabeled, hcount,
    placeOverlays_relabeled, overlayWarnings_relabeled]

/-- A plan is laid out whatever the names and texts in it are. -/
theorem computeAs_relabeled (plan : Plan α) (modeKey platformKey : String)
    (config : CompilerConfig α) :
    computeAs (plan.relabeled f g hints) modeKey platformKey config
      = (computeAs plan modeKey platformKey config).map (·.relabeled f g) := by
  have hschedule : schedule (plan.relabeled f g hints) (Mode.resolve modeKey) config
      = schedule plan (Mode.resolve modeKey) config := by
    rw [schedule, schedule, estimateClips_relabeled]
  rw [computeAs, computeAs, hschedule]
  cases schedule plan (Mode.resolve modeKey) config with
  | error fault => rfl
  | ok schedule =>
      simp only [assemble_relabeled]
      rfl

/-! ## From the layout to the payloads -/

variable (layout : Layout α)

omit [Scalar α] in
/-- Transitions between clips carry no names. -/
theorem joins_relabeled : (layout.relabeled f g).joins = layout.joins := by
  apply List.ext_getElem?
  intro k
  simp only [joins, relabeled, joinsOf_getElem?, List.getElem?_map, Option.bind_map,
    Option.map_map]
  rfl

omit [Scalar α] in
/-- The opening of a payload in frames carries no names. -/
theorem opening_relabeled :
    FramePayload.opening (layout.relabeled f g) = FramePayload.opening layout := by
  simp only [FramePayload.opening, relabeled, List.head?_map]
  cases layout.clips.head? with
  | none => rfl
  | some clip => rfl

omit [Scalar α] in
/-- The closing of a payload in frames carries no names. -/
theorem closing_relabeled :
    FramePayload.closing (layout.relabeled f g) = FramePayload.closing layout := by
  simp only [FramePayload.closing, relabeled, List.getLast?_map]
  cases layout.clips.getLast? with
  | none => rfl
  | some clip => rfl

/-- The payload in frames of a relabelled layout is the relabelled payload. -/
theorem framesOf_relabeled (compiler : Compiler α) :
    compiler.framesOf (layout.relabeled f g) = (compiler.framesOf layout).relabeled f g := by
  dsimp only [Compiler.framesOf, FramePayload.ofLayout, FramePayload.relabeled]
  rw [joins_relabeled, opening_relabeled, closing_relabeled]
  simp only [relabeled, List.map_map, Option.map_map]
  rfl

omit [Scalar α] in
/-- The text track of a relabelled layout is the relabelled text track. -/
theorem textTrack?_relabeled :
    TrackPayload.textTrack? (layout.relabeled f g)
      = (TrackPayload.textTrack? layout).map (·.relabeled f g) := by
  unfold TrackPayload.textTrack? relabeled
  cases layout.overlays with
  | nil => rfl
  | cons overlay rest =>
      simp only [List.map_cons, List.isEmpty_cons, Bool.false_eq_true, if_false, Option.map_some,
        Track.relabeled, List.map_map]
      rfl

omit [Scalar α] in
/-- The background track of a relabelled layout is the relabelled background track. -/
theorem backgroundTrack?_relabeled :
    TrackPayload.backgroundTrack? (layout.relabeled f g)
      = (TrackPayload.backgroundTrack? layout).map (·.relabeled f g) := by
  unfold TrackPayload.backgroundTrack? relabeled
  cases layout.background with
  | none => rfl
  | some background => rfl

/-- The payload in seconds of a relabelled layout is the relabelled payload. -/
theorem tracksOf_relabeled (compiler : Compiler α) :
    compiler.tracksOf (layout.relabeled f g) = (compiler.tracksOf layout).relabeled f g := by
  have hvideo : (layout.relabeled f g).clips.map TrackPayload.videoClip
      = (layout.clips.map TrackPayload.videoClip).map (·.relabeled f g) := by
    rw [List.map_map, relabeled, List.map_map]
    rfl
  dsimp only [Compiler.tracksOf, TrackPayload.ofLayout, TrackPayload.relabeled]
  rw [textTrack?_relabeled, backgroundTrack?_relabeled, hvideo, List.map_append, List.map_cons,
    Option.toList_map, Option.toList_map]
  rfl

omit [Scalar α] in
/-- Names and texts that stay leave a layout as it is. -/
theorem relabeled_id : layout.relabeled id id = layout := by
  have hclips : layout.clips.map (·.relabeled id) = layout.clips := List.map_id _
  have hoverlays : layout.overlays.map (·.relabeled id) = layout.overlays := List.map_id _
  have hsoundtrack : layout.soundtrack.map (·.relabeled id) = layout.soundtrack :=
    Option.map_id_apply
  rw [relabeled, hclips, hoverlays, hsoundtrack]

end Layout

/-! ## In the JSON of a payload -/

namespace Json

variable {α : Type} (tell : String → String → String)

mutual

/-- A value with other strings in it; what a string becomes depends on the key that it
stands under. -/
def retold (key : String) : Json α → Json α
  | .str text => .str (tell key text)
  | .arr items => .arr (retoldItems key items)
  | .obj members => .obj (retoldMembers members)
  | value => value

def retoldItems (key : String) : List (Json α) → List (Json α)
  | [] => []
  | item :: items => item.retold key :: retoldItems key items

def retoldMembers : List (String × Json α) → List (String × Json α)
  | [] => []
  | (key, value) :: members => (key, value.retold key) :: retoldMembers members

end

attribute [simp] retoldMembers

@[simp] theorem retold_str (key text : String) :
    (str text : Json α).retold tell key = str (tell key text) := rfl

@[simp] theorem retold_nat (key : String) (n : ℕ) : (nat n : Json α).retold tell key = nat n := rfl

@[simp] theorem retold_real (key : String) (x : α) : (real x).retold tell key = real x := rfl

@[simp] theorem retold_obj (key : String) (members : List (String × Json α)) :
    (obj members).retold tell key = obj (retoldMembers tell members) := rfl

@[simp] theorem retold_list {β : Type} (key : String) (write : β → Json α) (items : List β) :
    (arr (items.map write)).retold tell key
      = arr (items.map fun item => (write item).retold tell key) := by
  rw [retold]
  congr 1
  induction items with
  | nil => rfl
  | cons item items ih => rw [List.map_cons, retoldItems, ih, List.map_cons]

@[simp] theorem retold_present (key : String) (members : List (String × Option (Json α))) :
    (present members).retold tell key =
      present (members.map fun (key, value) => (key, value.map (retold tell key))) := by
  rw [present, retold, present]
  congr 1
  induction members with
  | nil => rfl
  | cons member members ih =>
      obtain ⟨key, value⟩ := member
      cases value with
      | none => exact ih
      | some value => exact congrArg _ ih

/-- Other strings under `src` and `text`, and nowhere else. -/
def labels (f g : String → String) (key text : String) : String :=
  if key = "src" then f text else if key = "text" then g text else text

end Json

section Written

open Json

variable {α : Type} (f g : String → String)

@[simp] theorem Json.retold_wordJson {β : Type} [Vocabulary β] (key : String) (b : β)
    (hsrc : key ≠ "src") (htext : key ≠ "text") :
    (wordJson b : Json α).retold (labels f g) key = wordJson b := by
  rw [wordJson, retold_str, labels, if_neg hsrc, if_neg htext]

theorem TransitionPair.retold_toJson (pair : TransitionPair) (key : String) :
    (pair.toJson : Json α).retold (labels f g) key = pair.toJson := by
  simp [TransitionPair.toJson]

/-! ### In seconds -/

theorem Asset.toJson_relabeled (asset : Asset α) (key : String) :
    (asset.relabeled f g).toJson = asset.toJson.retold (labels f g) key := by
  cases asset <;> simp [Asset.relabeled, Asset.toJson, labels]

/-- Relabelling a clip of a track retells what it is written as. -/
theorem TrackClip.toJson_relabeled (clip : TrackClip α) (key : String) :
    (clip.relabeled f g).toJson = clip.toJson.retold (labels f g) key := by
  simp [TrackClip.relabeled, TrackClip.toJson, ← Asset.toJson_relabeled, Function.comp_def,
    TransitionPair.retold_toJson]

/-- Relabelling a payload in seconds retells the document it is written as. -/
theorem TrackPayload.toJson_relabeled (payload : TrackPayload α) :
    (payload.relabeled f g).toJson = payload.toJson.retold (labels f g) "" := by
  simp [TrackPayload.relabeled, TrackPayload.toJson, TrackPayload.soundtrackJson, Track.relabeled,
    Track.toJson, Soundtrack.relabeled, ← TrackClip.toJson_relabeled, Function.comp_def,
    labels]

/-! ### In frames -/

theorem Presentation.retold_toJson (presentation : Presentation) (key : String) :
    (presentation.toJson : Json α).retold (labels f g) key = presentation.toJson := by
  simp [Presentation.toJson, Function.comp_def]

theorem KenBurns.retold_toJson (kenBurns : KenBurns α) (key : String) :
    kenBurns.toJson.retold (labels f g) key = kenBurns.toJson := by
  simp [KenBurns.toJson]

theorem FrameSpan.retold_toJson (span : FrameSpan) (key : String) :
    (span.toJson : Json α).retold (labels f g) key = span.toJson := by
  simp [FrameSpan.toJson]

/-- Relabelling a sequence retells what it is written as. -/
theorem FrameSequence.toJson_relabeled (sequence : FrameSequence α) (key : String) :
    (sequence.relabeled f).toJson = sequence.toJson.retold (labels f g) key := by
  simp [FrameSequence.relabeled, FrameSequence.toJson, KenBurns.retold_toJson,
    Function.comp_def, labels]

theorem FrameTransition.retold_toJson (transition : FrameTransition) (key : String) :
    (transition.toJson : Json α).retold (labels f g) key = transition.toJson := by
  simp [FrameTransition.toJson, Presentation.retold_toJson]

theorem FrameEdge.retold_toJson (edge : FrameEdge) (key : String) :
    (edge.toJson : Json α).retold (labels f g) key = edge.toJson := by
  simp [FrameEdge.toJson, Presentation.retold_toJson]

theorem FrameOverlay.toJson_relabeled (overlay : FrameOverlay) (key : String) :
    ((overlay.relabeled g).toJson : Json α) = overlay.toJson.retold (labels f g) key := by
  simp [FrameOverlay.relabeled, FrameOverlay.toJson, labels]

theorem FrameMusic.toJson_relabeled (music : FrameMusic α) (key : String) :
    (music.relabeled f).toJson = music.toJson.retold (labels f g) key := by
  simp [FrameMusic.relabeled, FrameMusic.toJson, labels]

/-- Relabelling a payload in frames retells the document it is written as. -/
theorem FramePayload.toJson_relabeled (payload : FramePayload α) :
    (payload.relabeled f g).toJson = payload.toJson.retold (labels f g) "" := by
  simp [FramePayload.relabeled, FramePayload.toJson, FrameSpan.retold_toJson,
    FrameTransition.retold_toJson, FrameEdge.retold_toJson, Function.comp_def, labels,
    ← FrameSequence.toJson_relabeled, ← FrameOverlay.toJson_relabeled,
    ← FrameMusic.toJson_relabeled]

end Written

/-! ## The compiler -/

namespace Compiler

variable {α : Type} [Scalar α]

section Names

variable (f g : String → String) (hints : ℕ → Option (Json α)) (plan : Plan α)
  (modeKey platformKey : String) (compiler : Compiler α)

/-- Laying out a relabelled plan relabels the layout, and fails as before. -/
theorem layoutAs_relabeled :
    compiler.layoutAs (plan.relabeled f g hints) modeKey platformKey
      = (compiler.layoutAs plan modeKey platformKey).map (·.relabeled f g) :=
  Layout.computeAs_relabeled f g hints plan modeKey platformKey compiler.config

/-- The payload in seconds commutes with relabelling. -/
theorem tracksAs_relabeled :
    compiler.tracksAs (plan.relabeled f g hints) modeKey platformKey
      = (compiler.tracksAs plan modeKey platformKey).map (·.relabeled f g) := by
  rw [tracksAs_eq_map, tracksAs_eq_map, layoutAs_relabeled]
  refine (Functor.map_map _ _ (compiler.layoutAs plan modeKey platformKey)).trans
    (.trans ?_ (Functor.map_map _ _ (compiler.layoutAs plan modeKey platformKey)).symm)
  simp only [Layout.tracksOf_relabeled]

/-- The payload in frames commutes with relabelling. -/
theorem framesAs_relabeled :
    compiler.framesAs (plan.relabeled f g hints) modeKey platformKey
      = (compiler.framesAs plan modeKey platformKey).map (·.relabeled f g) := by
  rw [framesAs_eq_map, framesAs_eq_map, layoutAs_relabeled]
  refine (Functor.map_map _ _ (compiler.layoutAs plan modeKey platformKey)).trans
    (.trans ?_ (Functor.map_map _ _ (compiler.layoutAs plan modeKey platformKey)).symm)
  simp only [Layout.framesOf_relabeled]

/-- Both payloads together commute with relabelling. -/
theorem both_relabeled :
    compiler.both (plan.relabeled f g hints) = (compiler.both plan).map
      fun (inSeconds, inFrames) => (inSeconds.relabeled f g, inFrames.relabeled f g) := by
  have hlayout : compiler.layout (plan.relabeled f g hints)
      = (compiler.layout plan).map (·.relabeled f g) :=
    layoutAs_relabeled f g hints plan plan.mode plan.platform compiler
  rw [both, both, hlayout]
  cases compiler.layout plan with
  | error fault => rfl
  | ok layout =>
      apply congrArg Except.ok
      rw [Layout.tracksOf_relabeled, Layout.framesOf_relabeled]

/-- Other names and texts are other strings under the keys `src` and `text`. -/
theorem payloadJson_relabeled (layout : Layout α) (backend : Backend) :
    compiler.payloadJson (layout.relabeled f g) backend
      = (compiler.payloadJson layout backend).retold (Json.labels f g) "" := by
  cases backend with
  | seconds => rw [payloadJson, payloadJson, Layout.tracksOf_relabeled,
      TrackPayload.toJson_relabeled]
  | frames => rw [payloadJson, payloadJson, Layout.framesOf_relabeled,
      FramePayload.toJson_relabeled]

/-- Other hints alone are not seen. -/
theorem computeAs_hints (config : CompilerConfig α) :
    Layout.computeAs (plan.relabeled id id hints) modeKey platformKey config
      = Layout.computeAs plan modeKey platformKey config := by
  rw [Layout.computeAs_relabeled]
  simp only [Layout.relabeled_id]
  cases Layout.computeAs plan modeKey platformKey config with
  | error fault => rfl
  | ok layout => rfl

end Names

/-- **Names, texts and hints are opaque.**  For any two functions on strings and any hints,
a plan with other names and texts fails with the same fault under any keys and settings, or
has the same layout with the other names and texts in it, warnings and all.  Its payloads,
whichever way they are asked for, are those of the plan with the functions applied to names
and texts, which in their JSON are all strings under `src` and `text`.  Other hints alone
change nothing. -/
theorem names_are_opaque (f g : String → String) (hints : ℕ → Option (Json α)) (plan : Plan α)
    (modeKey platformKey : String) (config : CompilerConfig α) :
    Layout.computeAs (plan.relabeled f g hints) modeKey platformKey config
        = (Layout.computeAs plan modeKey platformKey config).map (·.relabeled f g) ∧
    (∀ compiler : Compiler α,
      compiler.tracksAs (plan.relabeled f g hints) modeKey platformKey
        = (compiler.tracksAs plan modeKey platformKey).map (·.relabeled f g) ∧
      compiler.framesAs (plan.relabeled f g hints) modeKey platformKey
        = (compiler.framesAs plan modeKey platformKey).map (·.relabeled f g) ∧
      compiler.both (plan.relabeled f g hints) = (compiler.both plan).map
        (fun (inSeconds, inFrames) => (inSeconds.relabeled f g, inFrames.relabeled f g)) ∧
      ∀ layout backend, compiler.payloadJson (layout.relabeled f g) backend
        = (compiler.payloadJson layout backend).retold (Json.labels f g) "") ∧
    Layout.computeAs (plan.relabeled id id hints) modeKey platformKey config
        = Layout.computeAs plan modeKey platformKey config ∧
    ∀ compiler : Compiler α,
      compiler.tracksAs (plan.relabeled id id hints) modeKey platformKey
        = compiler.tracksAs plan modeKey platformKey ∧
      compiler.framesAs (plan.relabeled id id hints) modeKey platformKey
        = compiler.framesAs plan modeKey platformKey := by
  refine ⟨Layout.computeAs_relabeled f g hints plan modeKey platformKey config, ?_,
    computeAs_hints hints plan modeKey platformKey config, ?_⟩
  · intro compiler
    exact ⟨tracksAs_relabeled f g hints plan modeKey platformKey compiler,
      framesAs_relabeled f g hints plan modeKey platformKey compiler,
      both_relabeled f g hints plan compiler, payloadJson_relabeled f g compiler⟩
  · intro compiler
    have hlayout : compiler.layoutAs (plan.relabeled id id hints) modeKey platformKey
        = compiler.layoutAs plan modeKey platformKey :=
      computeAs_hints hints plan modeKey platformKey compiler.config
    rw [tracksAs_eq_map, tracksAs_eq_map, framesAs_eq_map, framesAs_eq_map, hlayout]
    exact ⟨rfl, rfl⟩

end Compiler

end Montage
