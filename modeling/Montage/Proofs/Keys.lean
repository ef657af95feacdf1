import Montage.Proofs.Twice

/-!
# What keys can change

A plan is compiled under two keys, and each of them acts only through the row of its
table that it resolves to.

The mode key decides the layout.  Two keys of one mode give the same layout but for
the warnings, which repeat the keys as they were typed.  The platform key decides the
frame and nothing else: `TrackPayload.reframed` and `FramePayload.reframed` say what a
frame is to a payload, and `tracksOf_onPlatform` and `framesOf_onPlatform` that
nothing but the frame follows the platform.

`Compiler.keys_act_by_row` puts this together for the whole compiler.  As special
cases a key that names nothing does what the key of the standard row does, the keys
in the plan have no part in a compile under explicit keys, and explicit keys do what
the same keys in the plan would do.
-/

namespace Montage

/-! ## Payloads in another frame -/

section Reframed

variable {α : Type}

/-- An asset in another frame: nothing but a page is as large as the frame. -/
def Asset.reframed (profile : PlatformProfile α) : Asset α → Asset α
  | .page _ _ background => .page profile.width profile.height background
  | asset => asset

def TrackClip.reframed (profile : PlatformProfile α) (clip : TrackClip α) : TrackClip α :=
  { clip with asset := clip.asset.reframed profile }

def Track.reframed (profile : PlatformProfile α) (track : Track α) : Track α :=
  { track with clips := track.clips.map (·.reframed profile) }

/-- A payload in seconds in another frame. -/
def TrackPayload.reframed (profile : PlatformProfile α) (payload : TrackPayload α) :
    TrackPayload α :=
  { payload with
    tracks := payload.tracks.map (·.reframed profile)
    width := profile.width
    height := profile.height
    aspect := profile.aspect }

/-- A payload in frames in another frame. -/
def FramePayload.reframed (profile : PlatformProfile α) (payload : FramePayload α) :
    FramePayload α :=
  { payload with width := profile.width, height := profile.height }

end Reframed

namespace Layout

variable {α : Type} [Scalar α]

/-- The layout on another platform, with the warnings that are found there. -/
def onPlatform (layout : Layout α) (platform : Platform) (warnings : List (Warning α)) :
    Layout α :=
  { layout with platform, platformProfile := platform.profile, warnings }

section

variable (layout : Layout α) (platform : Platform) (warnings : List (Warning α))

omit [Scalar α] in
/-- Captions take no frame, so their track is the same on every platform. -/
theorem textTrack?_reframed (profile : PlatformProfile α) :
    (TrackPayload.textTrack? layout).map (·.reframed profile)
      = TrackPayload.textTrack? layout := by
  unfold TrackPayload.textTrack?
  cases layout.overlays with
  | nil => rfl
  | cons overlay rest =>
      simp only [List.isEmpty_cons, Bool.false_eq_true, if_false, Option.map_some, Track.reframed,
        List.map_map]
      rfl

/-- The background takes the frame of the platform. -/
theorem backgroundTrack?_onPlatform :
    TrackPayload.backgroundTrack? (layout.onPlatform platform warnings)
      = (TrackPayload.backgroundTrack? layout).map (·.reframed platform.profile) := by
  unfold TrackPayload.backgroundTrack? onPlatform
  cases layout.background with
  | none => rfl
  | some background => rfl

omit [Scalar α] in
/-- Clips take no frame, so their track is the same on every platform. -/
theorem videoTrack_reframed (profile : PlatformProfile α) :
    Track.reframed profile ⟨.video, layout.clips.map TrackPayload.videoClip⟩
      = ⟨.video, layout.clips.map TrackPayload.videoClip⟩ := by
  rw [Track.reframed, List.map_map]
  rfl

/-- Another platform shows in the payload in seconds as another frame. -/
theorem tracksOf_onPlatform (compiler : Compiler α) :
    compiler.tracksOf (layout.onPlatform platform warnings)
      = (compiler.tracksOf layout).reframed platform.profile := by
  have htext : TrackPayload.textTrack? (layout.onPlatform platform warnings)
      = TrackPayload.textTrack? layout := rfl
  have htracks : (compiler.tracksOf (layout.onPlatform platform warnings)).tracks
      = (compiler.tracksOf layout).tracks.map (·.reframed platform.profile) := by
    simp only [Compiler.tracksOf, TrackPayload.ofLayout, List.map_append, List.map_cons,
      ← Option.toList_map, htext, textTrack?_reframed, videoTrack_reframed,
      backgroundTrack?_onPlatform]
    rfl
  rw [TrackPayload.reframed, ← htracks]
  rfl

/-- Another platform shows in the payload in frames as another frame. -/
theorem framesOf_onPlatform (compiler : Compiler α) :
    compiler.framesOf (layout.onPlatform platform warnings)
      = (compiler.framesOf layout).reframed platform.profile := rfl

end

/-- Keys of one mode give the same layout, on the platform of the second key. -/
theorem assemble_keys (plan : Plan α) {modeKey modeKey' : String}
    (platformKey platformKey' : String) (config : CompilerConfig α) (schedule : Schedule α)
    (h : Mode.resolve modeKey' = Mode.resolve modeKey) :
    ∃ warnings, assemble plan modeKey' platformKey' config schedule
      = (assemble plan modeKey platformKey config schedule).onPlatform
          (Platform.resolve platformKey') warnings := by
  refine ⟨(assemble plan modeKey' platformKey' config schedule).warnings, ?_⟩
  simp only [assemble, onPlatform, h]

end Layout

/-! ## Keys that name nothing -/

/-- A mode key that names nothing means the standard mode. -/
theorem Mode.resolve_of_lookup?_eq_none {key : String} (h : Mode.lookup? key = none) :
    Mode.resolve key = Mode.resolve "cinematic" := by
  have hstandard : Mode.resolve "cinematic" = Mode.standard := by decide +kernel
  rw [hstandard, Mode.resolve, h, Option.getD_none]

/-- A platform key that names nothing means the standard platform. -/
theorem Platform.resolve_of_lookup?_eq_none {key : String} (h : Platform.lookup? key = none) :
    Platform.resolve key = Platform.resolve "youtube" := by
  have hstandard : Platform.resolve "youtube" = Platform.standard := by decide +kernel
  rw [hstandard, Platform.resolve, h, Option.getD_none]

/-! ## The compiler -/

namespace Compiler

/-- Two ways of asking a compiler, each a plan with two keys, give the same payloads, to
the last byte of their texts. -/
structure SamePayloads (compiler : Compiler Float) (plan : Plan Float)
    (modeKey platformKey : String) (plan' : Plan Float) (modeKey' platformKey' : String) :
    Prop where
  tracks : compiler.tracksAs plan' modeKey' platformKey'
    = compiler.tracksAs plan modeKey platformKey
  frames : compiler.framesAs plan' modeKey' platformKey'
    = compiler.framesAs plan modeKey platformKey
  text (backend : Backend) : compiler.textAs plan' modeKey' platformKey' backend
    = compiler.textAs plan modeKey platformKey backend

section Frames

variable {α : Type} [Scalar α] (compiler : Compiler α) (plan : Plan α)
  {modeKey modeKey' : String} (platformKey platformKey' : String)

/-- Under mode keys of one mode a plan has layouts that differ in platform and warnings
only. -/
theorem layoutAs_keys (h : Mode.resolve modeKey' = Mode.resolve modeKey) :
    Alike (fun layout layout' =>
        ∃ warnings, layout' = layout.onPlatform (Platform.resolve platformKey') warnings)
      (compiler.layoutAs plan modeKey platformKey)
      (compiler.layoutAs plan modeKey' platformKey') := by
  rw [layoutAs_eq_map, layoutAs_eq_map, Layout.footage_congr h]
  apply Alike.map
  intro schedule
  exact Layout.assemble_keys plan platformKey platformKey' compiler.config schedule h

/-- Keys that resolve to the same two rows give layouts that differ in their warnings
at most. -/
theorem layoutAs_rows (hmode : Mode.resolve modeKey' = Mode.resolve modeKey)
    (hplatform : Platform.resolve platformKey' = Platform.resolve platformKey) :
    Alike (fun layout layout' => ∃ warnings, layout' = { layout with warnings })
      (compiler.layoutAs plan modeKey platformKey)
      (compiler.layoutAs plan modeKey' platformKey') := by
  rw [layoutAs_eq_map, layoutAs_eq_map, Layout.footage_congr hmode]
  apply Alike.map
  intro schedule
  obtain ⟨warnings, hlayout⟩ := Layout.assemble_keys plan platformKey platformKey'
    compiler.config schedule hmode
  refine ⟨warnings, ?_⟩
  rw [hlayout, hplatform]
  rfl

/-- Its payloads in seconds differ in the frame only. -/
theorem tracksAs_keys (h : Mode.resolve modeKey' = Mode.resolve modeKey) :
    compiler.tracksAs plan modeKey' platformKey' =
      (compiler.tracksAs plan modeKey platformKey).map
        (·.reframed (Platform.resolve platformKey').profile) := by
  rw [tracksAs_eq_map, tracksAs_eq_map]
  refine .trans ?_ (Functor.map_map _ _ (compiler.layoutAs plan modeKey platformKey)).symm
  apply (compiler.layoutAs_keys plan platformKey platformKey' h).map_eq
  rintro layout _ ⟨warnings, rfl⟩
  exact layout.tracksOf_onPlatform _ warnings compiler

/-- Its payloads in frames differ in the frame only. -/
theorem framesAs_keys (h : Mode.resolve modeKey' = Mode.resolve modeKey) :
    compiler.framesAs plan modeKey' platformKey' =
      (compiler.framesAs plan modeKey platformKey).map
        (·.reframed (Platform.resolve platformKey').profile) := by
  rw [framesAs_eq_map, framesAs_eq_map]
  refine .trans ?_ (Functor.map_map _ _ (compiler.layoutAs plan modeKey platformKey)).symm
  apply (compiler.layoutAs_keys plan platformKey platformKey' h).map_eq
  rintro layout _ ⟨warnings, rfl⟩
  exact layout.framesOf_onPlatform _ warnings compiler

end Frames

variable (compiler : Compiler Float) (plan : Plan Float)

/-- No payload shows a warning. -/
theorem samePayloads_of_rows {modeKey modeKey' platformKey platformKey' : String}
    (hmode : Mode.resolve modeKey' = Mode.resolve modeKey)
    (hplatform : Platform.resolve platformKey' = Platform.resolve platformKey) :
    compiler.SamePayloads plan modeKey platformKey plan modeKey' platformKey' := by
  have hlayouts := compiler.layoutAs_rows plan platformKey platformKey' hmode hplatform
  constructor
  case tracks =>
    rw [tracksAs_eq_map, tracksAs_eq_map]
    apply hlayouts.map_eq
    rintro layout _ ⟨warnings, rfl⟩
    rfl
  case frames =>
    rw [framesAs_eq_map, framesAs_eq_map]
    apply hlayouts.map_eq
    rintro layout _ ⟨warnings, rfl⟩
    rfl
  case text =>
    intro backend
    rw [textAs_eq_map, textAs_eq_map]
    apply hlayouts.map_eq
    rintro layout _ ⟨warnings, rfl⟩
    cases backend with
    | seconds => rfl
    | frames => rfl

/-- The text of a payload is the payload printed. -/
theorem textAs_eq (modeKey platformKey : String) (backend : Backend) :
    compiler.textAs plan modeKey platformKey backend =
      match backend with
      | .seconds => (compiler.tracksAs plan modeKey platformKey).map (·.toJson.pretty)
      | .frames => (compiler.framesAs plan modeKey platformKey).map (·.toJson.pretty) := by
  cases backend with
  | seconds =>
      simp only
      rw [textAs_eq_map, tracksAs_eq_map]
      exact (Functor.map_map compiler.tracksOf (·.toJson.pretty)
        (compiler.layoutAs plan modeKey platformKey)).symm
  | frames =>
      simp only
      rw [textAs_eq_map, framesAs_eq_map]
      exact (Functor.map_map compiler.framesOf (·.toJson.pretty)
        (compiler.layoutAs plan modeKey platformKey)).symm

/-- **Keys act only through the rows that they resolve to.**  Between two mode keys of
one mode and any two platform keys a plan fails alike, or has two layouts that are the
same but for platform and warnings and two payloads of each kind that are the same but
for the frame.  With platform keys of one platform the payloads are the same to the last
byte of their texts.  So a key that names nothing does what the standard key does; the
keys of the plan itself have no part in this; and a plan with other keys compiles as the
plan does under them. -/
theorem keys_act_by_row (modeKey platformKey : String) :
    (∀ modeKey' platformKey', Mode.resolve modeKey' = Mode.resolve modeKey →
      Alike (fun layout layout' =>
          ∃ warnings, layout' = layout.onPlatform (Platform.resolve platformKey') warnings)
        (compiler.layoutAs plan modeKey platformKey)
        (compiler.layoutAs plan modeKey' platformKey') ∧
      compiler.tracksAs plan modeKey' platformKey' =
        (compiler.tracksAs plan modeKey platformKey).map
          (·.reframed (Platform.resolve platformKey').profile) ∧
      compiler.framesAs plan modeKey' platformKey' =
        (compiler.framesAs plan modeKey platformKey).map
          (·.reframed (Platform.resolve platformKey').profile) ∧
      compiler.textAs plan modeKey' platformKey' .seconds =
        (compiler.tracksAs plan modeKey platformKey).map
          (fun payload =>
            (payload.reframed (Platform.resolve platformKey').profile).toJson.pretty) ∧
      compiler.textAs plan modeKey' platformKey' .frames =
        (compiler.framesAs plan modeKey platformKey).map
          (fun payload =>
            (payload.reframed (Platform.resolve platformKey').profile).toJson.pretty) ∧
      (Platform.resolve platformKey' = Platform.resolve platformKey →
        compiler.SamePayloads plan modeKey platformKey plan modeKey' platformKey')) ∧
    (Mode.lookup? modeKey = none →
      compiler.SamePayloads plan "cinematic" platformKey plan modeKey platformKey) ∧
    (Platform.lookup? platformKey = none →
      compiler.SamePayloads plan modeKey "youtube" plan modeKey platformKey) ∧
    (∀ mode platform, compiler.layoutAs { plan with mode, platform } modeKey platformKey
        = compiler.layoutAs plan modeKey platformKey ∧
      compiler.SamePayloads plan modeKey platformKey
        { plan with mode, platform } modeKey platformKey) ∧
    compiler.layout { plan with mode := modeKey, platform := platformKey }
      = compiler.layoutAs plan modeKey platformKey ∧
    compiler.tracks { plan with mode := modeKey, platform := platformKey }
      = compiler.tracksAs plan modeKey platformKey ∧
    compiler.frames { plan with mode := modeKey, platform := platformKey }
      = compiler.framesAs plan modeKey platformKey ∧
    ∀ backend, compiler.text { plan with mode := modeKey, platform := platformKey } backend
      = compiler.textAs plan modeKey platformKey backend := by
  refine ⟨?_, ?_, ?_, ?_, ?_⟩
  · intro modeKey' platformKey' hmode
    have htracks := compiler.tracksAs_keys plan platformKey platformKey' hmode
    have hframes := compiler.framesAs_keys plan platformKey platformKey' hmode
    refine ⟨compiler.layoutAs_keys plan platformKey platformKey' hmode, htracks, hframes,
      ?_, ?_, compiler.samePayloads_of_rows plan hmode⟩
    · rw [textAs_eq, htracks]
      exact Functor.map_map _ _ (compiler.tracksAs plan modeKey platformKey)
    · rw [textAs_eq, hframes]
      exact Functor.map_map _ _ (compiler.framesAs plan modeKey platformKey)
  · intro hunknown
    apply compiler.samePayloads_of_rows plan _ rfl
    exact Mode.resolve_of_lookup?_eq_none hunknown
  · intro hunknown
    apply compiler.samePayloads_of_rows plan rfl
    exact Platform.resolve_of_lookup?_eq_none hunknown
  · intro mode platform
    exact ⟨rfl, rfl, rfl, fun _ => rfl⟩
  · exact ⟨rfl, rfl, rfl, fun _ => rfl⟩

/-- A mode that nobody has heard of is the cinematic one to the last byte, and an unknown
platform has the frame of the standard one. -/
theorem keys_act_by_row_of_unknown_keys :
    standard.SamePayloads (.sample Float) "cinematic" "TikTok"
      (.sample Float) "vaporwave" "tiktok" ∧
    ∃ payload, standard.tracksAs (.sample Float) "cinematic" "myspace" = .ok payload ∧
      standard.tracksAs (.sample Float) "vaporwave" "tiktok"
        = .ok (payload.reframed Platform.tiktok.profile) := by
  have hcompiles : (standard.tracksAs (.sample Float) "cinematic" "myspace").toOption.any
      (fun _ => true) = true := by
    decide +kernel
  obtain ⟨payload, hpayload, _⟩ := exists_of_any hcompiles
  have hmode : Mode.resolve "vaporwave" = Mode.resolve "cinematic" := by decide +kernel
  have hplatform : Platform.resolve "tiktok" = .tiktok := by decide +kernel
  constructor
  · obtain ⟨hkeys, _⟩ := keys_act_by_row standard (.sample Float) "cinematic" "TikTok"
    obtain ⟨_, _, _, _, _, hsame⟩ := hkeys "vaporwave" "tiktok" hmode
    exact hsame (by decide +kernel)
  · obtain ⟨hkeys, _⟩ := keys_act_by_row standard (.sample Float) "cinematic" "myspace"
    obtain ⟨_, htracks, _⟩ := hkeys "vaporwave" "tiktok" hmode
    refine ⟨payload, hpayload, ?_⟩
    rw [htracks, hpayload, hplatform]
    rfl

end Compiler

end Montage
