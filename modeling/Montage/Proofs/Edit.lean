import Montage.Proofs.Twice

/-!
# What the edit of a clip can change

An editor gives a clip another look, another file, another place in its file.  As long
as the clip keeps its length this is nobody else's business: no time moves, and the
clip alone looks different.

`AgreeOutside` says of two lists that they agree but at some spots, and what they have
in common even there.  Three structures use it to say what an edit of the clip at one
index is to a layout and to its two payloads.  The payload in frames has the transitions
between its clips, so there an edit shows one place further: in the transition that leads
to the clip, and at the end of the video where the clip is the last one.

`Compiler.edit_local` is the statement about the compiler.  The opening clip is a case of
its own: it has the transitions of the mode, so transitions asked for there have no effect
at all.
-/

namespace Montage

/-- Two lists agree outside some spots, and their elements are related everywhere. -/
structure AgreeOutside {β : Type} (spots : ℕ → Prop) (kept : β → β → Prop) (xs ys : List β) :
    Prop where
  others : ∀ k, ¬ spots k → ys[k]? = xs[k]?
  kept : List.Forall₂ kept xs ys

namespace AgreeOutside

variable {β γ : Type} {spots : ℕ → Prop} {kept : β → β → Prop} {xs ys : List β}

/-- What is made of each entry in the same way agrees where the entries did. -/
theorem map {kept' : γ → γ → Prop} {f : β → γ} (h : AgreeOutside spots kept xs ys)
    (hf : ∀ x y, kept x y → kept' (f x) (f y)) :
    AgreeOutside spots kept' (xs.map f) (ys.map f) where
  others := by
    intro k hk
    rw [List.getElem?_map, List.getElem?_map, h.others k hk]
  kept := by
    rw [List.forall₂_map_left_iff, List.forall₂_map_right_iff]
    exact h.kept.imp hf

/-- One element is replaced. -/
theorem set {j : ℕ} {x y : β} (hx : xs[j]? = some x) (hxy : kept x y)
    (hrefl : ∀ x, kept x x) : AgreeOutside (· = j) kept xs (xs.set j y) where
  others := by
    intro k hk
    rw [List.getElem?_set_ne (Ne.symm hk)]
  kept := by
    induction xs generalizing j with
    | nil => exact .nil
    | cons first rest ih =>
        cases j with
        | zero =>
            obtain rfl : first = x := Option.some.inj hx
            exact .cons hxy (List.forall₂_same.mpr fun x _ => hrefl x)
        | succ j => exact .cons (hrefl first) (ih hx)

end AgreeOutside

/-! ## Edits of a layout and of its payloads -/

section Edited

variable {α : Type}

/-- Two clips in one place, equally long and loud. -/
def ClipPlacement.SamePlace (placed placed' : ClipPlacement α) : Prop :=
  placed' = { placed with
    sourceReference := placed'.sourceReference
    trimStart := placed'.trimStart
    transition := placed'.transition
    effect := placed'.effect
    filter := placed'.filter }

/-- Two layouts that differ by an edit of the clip at an index. -/
structure Layout.EditedAt (j : ℕ) (layout other : Layout α) : Prop where
  same : other = { layout with clips := other.clips }
  clips : AgreeOutside (· = j) ClipPlacement.SamePlace layout.clips other.clips

/-- Two stretches of a track that begin and end together. -/
def TrackClip.SamePlace (clip clip' : TrackClip α) : Prop :=
  clip' = { clip with
    asset := clip'.asset
    transition := clip'.transition
    effect := clip'.effect
    filter := clip'.filter }

/-- Two payloads in seconds that differ by an edit of the video clip at an index. -/
structure TrackPayload.EditedAt (j : ℕ) (payload other : TrackPayload α) : Prop where
  same : other = { payload with tracks := other.tracks }
  tracks : List.Forall₂
    (fun track track' => track' = track ∨ track.role = .video ∧ track'.role = .video ∧
      AgreeOutside (· = j) TrackClip.SamePlace track.clips track'.clips)
    payload.tracks other.tracks

/-- Two sequences of the same frames, equally loud. -/
def FrameSequence.SamePlace (sequence sequence' : FrameSequence α) : Prop :=
  sequence' = { sequence with
    source := sequence'.source
    startFrom := sequence'.startFrom
    kenBurns := sequence'.kenBurns
    filter := sequence'.filter }

/-- Two payloads in frames that differ by an edit of the clip at an index. -/
structure FramePayload.EditedAt (j : ℕ) (payload other : FramePayload α) : Prop where
  same : other = { payload with
    sequences := other.sequences
    transitions := other.transitions
    outro := other.outro }
  sequences : AgreeOutside (· = j) FrameSequence.SamePlace payload.sequences other.sequences
  /-- The transition that leads to the clip stands one index before it. -/
  transitions : AgreeOutside (· + 1 = j)
    (fun transition transition' => transition' = { transition with source := transition'.source })
    payload.transitions other.transitions
  outro_duration : other.outro.duration = payload.outro.duration
  of_outro_ne : other.outro ≠ payload.outro → 0 < j ∧ j + 1 = payload.sequences.length

end Edited

/-- The plan with another clip at an index. -/
def Plan.withClipAt {α : Type} (plan : Plan α) (j : ℕ) (clip : Clip α) : Plan α :=
  { plan with clips := plan.clips.set j clip }

namespace Layout

/-! ## Lists of clips -/

section Clips

variable {α : Type} {spots : ℕ → Prop}

/-- Clips of the same lengths are put in the same places. -/
theorem agreeOutside_placeClips (profile : ModeProfile α) (volume : α) (starts : List α)
    {clips clips' : List (Clip α)}
    (h : AgreeOutside spots (fun clip clip' => clip'.length = clip.length) clips clips') :
    AgreeOutside spots ClipPlacement.SamePlace (placeClips profile volume 0 clips starts)
      (placeClips profile volume 0 clips' starts) where
  others := by
    intro k hk
    rw [placeClips_getElem?, placeClips_getElem?, h.others k hk]
  kept := by
    have hkept := h.kept
    clear h
    generalize 0 = index
    induction hkept generalizing index starts with
    | nil => exact .nil
    | cons hlength _ ih =>
        cases starts with
        | nil => exact .nil
        | cons start starts =>
            refine .cons ?_ (ih starts (index + 1))
            rw [ClipPlacement.SamePlace, placeClip, placeClip, hlength]

/-- The transitions between clips follow the second of the two. -/
theorem agreeOutside_joinsOf {j : ℕ} {clips clips' : List (ClipPlacement α)}
    (h : AgreeOutside (· = j) ClipPlacement.SamePlace clips clips') :
    AgreeOutside (· + 1 = j) (fun join join' => join'.1 = join.1) (joinsOf clips)
      (joinsOf clips') := by
  have hindex : List.Forall₂ (fun clip clip' => clip'.index = clip.index) clips clips' := by
    apply h.kept.imp
    intro placed placed' hsame
    rw [hsame]
  constructor
  case others =>
    intro k hk
    have hindices : clips'.map ClipPlacement.index = clips.map ClipPlacement.index := by
      clear h
      induction hindex with
      | nil => rfl
      | cons hfirst _ ih => rw [List.map_cons, List.map_cons, hfirst, ih]
    have hget : ∀ clips : List (ClipPlacement α), (joinsOf clips)[k]? =
        (clips.map ClipPlacement.index)[k]?.bind fun index =>
          clips[k + 1]?.map fun next => (index, next.transition.entry) := by
      intro clips
      rw [joinsOf_getElem?, List.getElem?_map, Option.bind_map]
      rfl
    rw [hget, hget, hindices, h.others (k + 1) hk]
  case kept =>
    clear h
    induction hindex with
    | nil => exact .nil
    | cons hfirst hrest ih =>
        cases hrest with
        | nil => exact .nil
        | cons _ _ => exact .cons hfirst ih

end Clips

section Two

variable {α : Type} [Scalar α] {plan plan' : Plan α} {modeKey platformKey : String}
  {config : CompilerConfig α} {layout layout' : Layout α} {j : ℕ} {clip edited : Clip α}

/-- Other parts of a layout do not look at the clips. -/
theorem assemble_withClipAt (plan : Plan α) (j : ℕ) (clip : Clip α) (modeKey platformKey : String)
    (config : CompilerConfig α) (schedule : Schedule α) :
    assemble (plan.withClipAt j clip) modeKey platformKey config schedule =
      { assemble plan modeKey platformKey config schedule with
        clips := placeClips (Mode.resolve modeKey).profile
          (clipVolume (Mode.resolve modeKey).profile config plan) 0 (plan.clips.set j clip)
          schedule.starts } := by
  have hvolume : clipVolume (Mode.resolve modeKey).profile config (plan.withClipAt j clip)
      = clipVolume (Mode.resolve modeKey).profile config plan := rfl
  have hmusic : soundtrackOf (Mode.resolve modeKey).profile config (plan.withClipAt j clip)
      = soundtrackOf (Mode.resolve modeKey).profile config plan := rfl
  dsimp only [assemble]
  rw [hvolume, hmusic]
  dsimp only [Plan.withClipAt]

/-- A plan goes on having a layout when a clip is edited, and the clip alone changes. -/
theorem exists_editedAt (h : computeAs plan modeKey platformKey config = .ok layout)
    (hclip : plan.clips[j]? = some clip) (hlength : edited.length = clip.length)
    (htrim : Schedule.trimFault? edited.trimStart = none) :
    ∃ layout', computeAs (plan.withClipAt j edited) modeKey platformKey config = .ok layout' ∧
      layout.EditedAt j layout' := by
  obtain ⟨hconfig, hne, haccepted, rfl⟩ := computeAs_eq_ok_iff.mp h
  have hclips : AgreeOutside (· = j) (fun clip clip' => clip'.length = clip.length) plan.clips
      (plan.withClipAt j edited).clips :=
    .set hclip hlength fun _ => rfl
  have hlengths : (plan.withClipAt j edited).clips.map Clip.length
      = plan.clips.map Clip.length := by
    have hmap : AgreeOutside (· = j) (fun x y => y = x) (plan.clips.map Clip.length)
        ((plan.withClipAt j edited).clips.map Clip.length) := hclips.map fun _ _ => id
    exact List.forall₂_eq_eq_eq ▸ hmap.kept.flip
  refine ⟨_, computeAs_eq_ok_iff.mpr ⟨hconfig, ?_, ?_, rfl⟩, ?_⟩
  · intro hnil
    apply hne
    rwa [← List.length_eq_zero_iff, hclips.kept.length_eq, List.length_eq_zero_iff]
  · intro other hother
    rcases List.mem_or_eq_of_mem_set hother with hold | rfl
    · exact haccepted other hold
    · refine ⟨htrim, ?_⟩
      rw [hlength]
      exact (haccepted clip (List.mem_of_getElem? hclip)).2
  · rw [hlengths]
    constructor
    case same => rw [assemble_withClipAt]
    case clips =>
      rw [clips_assemble, clips_assemble]
      exact agreeOutside_placeClips _ _ _ hclips

/-- The opening clip has the transitions of the mode. -/
theorem transition_of_first (h : computeAs plan modeKey platformKey config = .ok layout)
    {placed : ClipPlacement α} (hfirst : layout.clips[0]? = some placed) :
    placed.transition = ((Mode.resolve modeKey).profile (α := α)).transition := by
  rw [clips_getElem? h, Option.bind_eq_some_iff] at hfirst
  obtain ⟨clip, _, hstart⟩ := hfirst
  obtain ⟨start, _, rfl⟩ := Option.map_eq_some_iff.mp hstart
  simp only [placeClip, styleClip, if_true]

/-- So the video opens the way the mode does, whatever the plan asks for. -/
theorem opening_eq (h : computeAs plan modeKey platformKey config = .ok layout) :
    FramePayload.opening layout = ((Mode.resolve modeKey).profile (α := α)).transition.entry := by
  unfold FramePayload.opening
  cases hfirst : layout.clips.head? with
  | none => simp only [modeProfile_eq h]
  | some placed =>
      rw [List.head?_eq_getElem?] at hfirst
      simp only [transition_of_first h hfirst]

/-- The video closes differently only when its last clip is edited and is not the
opening one too. -/
theorem closing_eq (h : computeAs plan modeKey platformKey config = .ok layout)
    (h' : computeAs plan' modeKey platformKey config = .ok layout')
    (hedit : layout.EditedAt j layout') (hj : ¬ (0 < j ∧ j + 1 = layout.clips.length)) :
    FramePayload.closing layout' = FramePayload.closing layout := by
  have hcount : layout'.clips.length = layout.clips.length := hedit.clips.kept.length_eq.symm
  have hpos := List.length_pos_iff.mpr (clips_ne_nil h)
  unfold FramePayload.closing
  by_cases hlast : layout.clips.length - 1 = j
  · have hzero : layout.clips.length - 1 = 0 := by omega
    have hget := List.getElem?_eq_getElem hpos
    have hget' := List.getElem?_eq_getElem (hcount ▸ hpos)
    rw [List.getLast?_eq_getElem?, List.getLast?_eq_getElem?, hcount, hzero, hget, hget']
    simp only [transition_of_first h hget, transition_of_first h' hget']
  · rw [List.getLast?_eq_getElem?, List.getLast?_eq_getElem?, hcount,
      hedit.clips.others _ hlast, hedit.same]

/-- In the payload in seconds an edit shows in the video clip at its index. -/
theorem EditedAt.tracksOf (hedit : layout.EditedAt j layout') (compiler : Compiler α) :
    (compiler.tracksOf layout).EditedAt j (compiler.tracksOf layout') := by
  obtain ⟨hsame, hclips⟩ := hedit
  constructor
  case same =>
    rw [hsame]
    rfl
  case tracks =>
    have hvideo : AgreeOutside (· = j) TrackClip.SamePlace
        (layout.clips.map TrackPayload.videoClip) (layout'.clips.map TrackPayload.videoClip) := by
      apply hclips.map
      intro placed placed' hplace
      rw [hplace]
      rfl
    have htext : TrackPayload.textTrack? layout' = TrackPayload.textTrack? layout := by
      rw [hsame]
      rfl
    have hbackground : TrackPayload.backgroundTrack? layout'
        = TrackPayload.backgroundTrack? layout := by
      rw [hsame]
      rfl
    simp only [Compiler.tracksOf, TrackPayload.ofLayout, htext, hbackground]
    apply List.rel_append
    · exact List.forall₂_same.mpr fun track _ => .inl rfl
    · refine .cons (.inr ⟨rfl, rfl, hvideo⟩) ?_
      exact List.forall₂_same.mpr fun track _ => .inl rfl

/-- In the payload in frames it shows in the sequence at its index, in the transition
that leads there, and behind the opening clip in the way the video ends. -/
theorem EditedAt.framesOf (h : computeAs plan modeKey platformKey config = .ok layout)
    (h' : computeAs plan' modeKey platformKey config = .ok layout')
    (hedit : layout.EditedAt j layout') (compiler : Compiler α) :
    (compiler.framesOf layout).EditedAt j (compiler.framesOf layout') := by
  have hclosing := closing_eq h h' hedit
  have hopening : FramePayload.opening layout' = FramePayload.opening layout := by
    rw [opening_eq h, opening_eq h']
  obtain ⟨hsame, hclips⟩ := hedit
  have hjoins := agreeOutside_joinsOf hclips
  have hblend : layout'.transitionDuration = layout.transitionDuration := by rw [hsame]
  constructor
  case same =>
    simp only [Compiler.framesOf, FramePayload.ofLayout, hopening]
    rw [hsame]
  case sequences =>
    apply hclips.map
    intro placed placed' hplace
    rw [hplace]
    rfl
  case transitions =>
    simp only [Compiler.framesOf, FramePayload.ofLayout, hblend]
    apply hjoins.map
    intro join join' hjoin
    simp only [hjoin]
  case outro_duration =>
    simp only [Compiler.framesOf, FramePayload.ofLayout, hblend]
  case of_outro_ne =>
    intro hne
    by_contra hj
    apply hne
    simp only [Compiler.framesOf, FramePayload.ofLayout, List.length_map] at hj ⊢
    rw [hblend, hclosing hj]

/-- Transitions asked for at the opening clip are not looked at. -/
theorem assemble_first_transition (hclip : plan.clips[0]? = some clip)
    (transition : Option TransitionPair) (schedule : Schedule α) :
    assemble (plan.withClipAt 0 { clip with transition }) modeKey platformKey config schedule
      = assemble plan modeKey platformKey config schedule := by
  rw [assemble_withClipAt]
  have hclips : ∀ volume starts,
      placeClips (Mode.resolve modeKey).profile volume 0 (plan.clips.set 0 { clip with transition })
          starts
        = placeClips (Mode.resolve modeKey).profile volume 0 plan.clips starts := by
    intro volume starts
    cases hcases : plan.clips with
    | nil => rfl
    | cons first rest =>
        rw [hcases] at hclip
        obtain rfl : first = clip := Option.some.inj hclip
        cases starts with
        | nil => rfl
        | cons start starts => rfl
  rw [hclips]
  dsimp only [assemble]

/-- How the first clip enters has no part in the schedule. -/
theorem footage_first_transition (hclip : plan.clips[0]? = some clip)
    (transition : Option TransitionPair) :
    footage modeKey (plan.withClipAt 0 { clip with transition }).clips
      = footage modeKey plan.clips := by
  unfold Plan.withClipAt
  cases hcases : plan.clips with
  | nil => rfl
  | cons first rest =>
      rw [hcases] at hclip
      obtain rfl : first = clip := Option.some.inj hclip
      rfl

end Two

end Layout

namespace Compiler

variable {α : Type} [Scalar α] (compiler : Compiler α)

/-- So the transition of the first clip changes nothing in a layout. -/
theorem layoutAs_first_transition {plan : Plan α} (modeKey platformKey : String) {clip : Clip α}
    (hclip : plan.clips[0]? = some clip) (transition : Option TransitionPair) :
    compiler.layoutAs (plan.withClipAt 0 { clip with transition }) modeKey platformKey
      = compiler.layoutAs plan modeKey platformKey := by
  rw [layoutAs_eq_map, layoutAs_eq_map, Layout.footage_first_transition hclip]
  congr 1
  funext schedule
  exact Layout.assemble_first_transition hclip transition schedule

/-- **The edit of a clip is local.**  Where a plan compiles and the clip at an index is
replaced by one of the same length with a trim that can be used, the plan goes on
compiling; layout and payloads change at that index alone, apart from the transition that
leads there and, behind the opening clip, the way the video ends.  Transitions asked for
at the opening clip change nothing. -/
theorem edit_local {plan : Plan α} {modeKey platformKey : String} {layout : Layout α} {j : ℕ}
    {clip edited : Clip α} (h : compiler.layoutAs plan modeKey platformKey = .ok layout)
    (hclip : plan.clips[j]? = some clip) (hlength : edited.length = clip.length)
    (htrim : Scalar.isFinite edited.trimStart = true ∧ ¬ edited.trimStart < 0) :
    Alike (Layout.EditedAt j) (compiler.layoutAs plan modeKey platformKey)
      (compiler.layoutAs (plan.withClipAt j edited) modeKey platformKey) ∧
    Alike (TrackPayload.EditedAt j) (compiler.tracksAs plan modeKey platformKey)
      (compiler.tracksAs (plan.withClipAt j edited) modeKey platformKey) ∧
    Alike (FramePayload.EditedAt j) (compiler.framesAs plan modeKey platformKey)
      (compiler.framesAs (plan.withClipAt j edited) modeKey platformKey) ∧
    (j = 0 → ∀ transition, edited = { clip with transition } →
      compiler.layoutAs (plan.withClipAt j edited) modeKey platformKey
          = compiler.layoutAs plan modeKey platformKey ∧
        compiler.tracksAs (plan.withClipAt j edited) modeKey platformKey
          = compiler.tracksAs plan modeKey platformKey ∧
        compiler.framesAs (plan.withClipAt j edited) modeKey platformKey
          = compiler.framesAs plan modeKey platformKey) := by
  have hvalid : Schedule.trimFault? edited.trimStart = none := by
    simp [Schedule.trimFault?, htrim]
  obtain ⟨layout', h', hedit⟩ := Layout.exists_editedAt h hclip hlength hvalid
  have hlayout' : compiler.layoutAs (plan.withClipAt j edited) modeKey platformKey
      = .ok layout' := h'
  -- both plans have a layout, so the four parts are about these two
  refine ⟨?_, ?_, ?_, ?_⟩
  · rw [h, hlayout']
    exact .succeed hedit
  · rw [tracksAs_eq_map, tracksAs_eq_map, h, hlayout']
    exact .succeed (hedit.tracksOf compiler)
  · rw [framesAs_eq_map, framesAs_eq_map, h, hlayout']
    exact .succeed (Layout.EditedAt.framesOf h h' hedit compiler)
  · rintro rfl transition rfl
    have hsame := compiler.layoutAs_first_transition modeKey platformKey hclip
      transition
    rw [tracksAs_eq_map, tracksAs_eq_map, framesAs_eq_map, framesAs_eq_map, hsame]
    exact ⟨rfl, rfl, rfl⟩

/-- Another end for the sample: from within another file, and with a look of its own. -/
def harbor : Clip Float :=
  (((Clip.ofLength "harbor" 5.1).trimmed 2.5).withEffect .slideLeft).withTransition
    (.symmetric .zoom)

/-- Another last clip, with other looks, in the sample: the payload in frames differs there
only. -/
theorem edit_local_to_last_clip :
    ∃ layout, standard.layoutAs (.sample Float) "vlog" "tiktok" = .ok layout ∧
      ∃ payload, standard.framesAs ((Plan.sample Float).withClipAt 2 harbor) "vlog" "tiktok"
          = .ok payload ∧
        (standard.framesOf layout).EditedAt 2 payload := by
  have hcompiles : (standard.layoutAs (.sample Float) "vlog" "tiktok").toOption.any
      (fun _ => true) = true := by
    decide +kernel
  obtain ⟨layout, hlayout, _⟩ := exists_of_any hcompiles
  have htrim : Scalar.isFinite harbor.trimStart = true ∧ ¬ harbor.trimStart < 0 := by
    decide +kernel
  have hclip : (Plan.sample Float).clips[2]? = some (.ofLength "sunset" 5.1) := rfl
  have hlength : harbor.length = (Clip.ofLength "sunset" 5.1 : Clip Float).length := rfl
  obtain ⟨_, _, hframes, _⟩ := edit_local standard hlayout hclip hlength htrim
  rw [framesAs_eq_map, hlayout] at hframes
  obtain ⟨payload, hpayload, hedited⟩ := hframes.exists_of_ok
  exact ⟨layout, hlayout, payload, hpayload, hedited⟩

end Compiler

end Montage
