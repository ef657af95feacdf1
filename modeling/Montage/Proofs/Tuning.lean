import Montage.Proofs.Twice

/-!
# What settings can change

Settings change the numbers of a layout and never its structure.  `Layout.Retuned`
says of two layouts of one plan which numbers those are, and for each of them which
setting it takes: a setting that is the same in both has no effect.

`Compiler.settings_change_numbers` holds of any two compilers, so of any two choices
of settings that make sense.  Neither can refuse a plan that the other accepts.  The
frame rate is not among the settings that a layout looks at, so changing it alone
changes nothing but the rate that the payload in seconds announces.
-/

namespace Montage

/-- The warning that a caption had to move. -/
def Warning.IsAdjustment {α : Type} (warning : Warning α) : Prop :=
  ∃ index requested placed, warning = .overlayAdjusted index requested placed

namespace Layout

variable {α : Type} [Scalar α]

/-- Two layouts of one plan, under settings that may differ. -/
structure Retuned (first second : CompilerConfig α) (plan : Plan α)
    (layout other : Layout α) : Prop where
  /-- Mode, platform, durations and the rows of the tables are the same. -/
  same : other = { layout with
    clips := other.clips
    overlays := other.overlays
    background := other.background
    soundtrack := other.soundtrack
    warnings := other.warnings }
  /-- Clips agree on all but how loud they are. -/
  clips : List.Forall₂ (fun clip clip' => clip' = { clip with volume := clip'.volume })
    layout.clips other.clips
  /-- Captions agree on all but when they are shown. -/
  overlays : List.Forall₂
    (fun overlay overlay' =>
      overlay' = { overlay with start := overlay'.start, duration := overlay'.duration })
    layout.overlays other.overlays
  /-- Backgrounds agree on all but how long they last. -/
  background : Option.Rel
    (fun background background' => background' = { background with length := background'.length })
    layout.background other.background
  /-- The music agrees on all but how loud it is. -/
  soundtrack : Option.Rel
    (fun soundtrack soundtrack' => soundtrack' = { soundtrack with volume := soundtrack'.volume })
    layout.soundtrack other.soundtrack
  /-- Warnings agree on all but captions that had to move. -/
  warnings : ∃ before after moved moved',
    layout.warnings = before ++ moved ++ after ∧ other.warnings = before ++ moved' ++ after ∧
      ∀ warning ∈ moved ++ moved', warning.IsAdjustment
  of_overlays_ne : other.overlays ≠ layout.overlays ∨ other.warnings ≠ layout.warnings →
    first.overlayLookback ≠ second.overlayLookback ∨ first.minOverlay ≠ second.minOverlay
  of_background_ne : other.background ≠ layout.background →
    first.backgroundTail ≠ second.backgroundTail
  of_clips_ne : other.clips ≠ layout.clips →
    plan.hasMusic = true ∧ first.duckedClipVolume ≠ second.duckedClipVolume
  of_soundtrack_ne : other.soundtrack ≠ layout.soundtrack →
    (∃ music, plan.music = some music ∧ music.volume = none) ∧ plan.overlays ≠ [] ∧
      first.textMusicDuck ≠ second.textMusicDuck

/-! ## One setting at a time -/

omit [Scalar α] in
/-- Clips differ only in how loud they are where they are placed at another volume. -/
theorem placeClips_volume (profile : ModeProfile α) (volume volume' : α) (index : ℕ)
    (clips : List (Clip α)) (starts : List α) :
    placeClips profile volume' index clips starts =
      (placeClips profile volume index clips starts).map fun clip =>
        { clip with volume := volume' } := by
  induction clips generalizing index starts with
  | nil => rfl
  | cons clip clips ih =>
      cases starts with
      | nil => rfl
      | cons start starts =>
          rw [placeClips, placeClips, ih, List.map_cons]
          rfl

/-- Every warning about captions is one of an adjustment. -/
theorem isAdjustment_of_mem {clamp : Clamp α} {video : α} {overlays : List (Overlay α)}
    {warning : Warning α} (h : warning ∈ overlayWarnings clamp video overlays) :
    warning.IsAdjustment := by
  obtain ⟨index, overlay, _, _, rfl⟩ := mem_overlayWarnings.mp h
  exact ⟨_, _, _, rfl⟩

section Settings

variable (profile : ModeProfile α) {first second : CompilerConfig α} (plan : Plan α) (video : α)

/-- Settings that agree on the two margins give the same clamp. -/
theorem clamp_congr (hlookback : first.overlayLookback = second.overlayLookback)
    (hminimum : first.minOverlay = second.minOverlay) :
    Clamp.ofConfig first = Clamp.ofConfig second := by
  rw [Clamp.ofConfig, Clamp.ofConfig, hlookback, hminimum]

omit [Scalar α] in
/-- Clips are as loud as the settings say only under music. -/
theorem clipVolume_congr
    (h : plan.hasMusic = true → first.duckedClipVolume = second.duckedClipVolume) :
    clipVolume profile first plan = clipVolume profile second plan := by
  unfold clipVolume
  cases hmusic : plan.hasMusic with
  | true => exact h hmusic
  | false => rfl

theorem backgroundOf_congr (h : first.backgroundTail = second.backgroundTail) :
    backgroundOf profile first video = backgroundOf profile second video := by
  rw [backgroundOf, backgroundOf, h]

/-- Whether there is a background does not depend on the settings, and neither does
its color. -/
theorem rel_backgroundOf (first second : CompilerConfig α) :
    Option.Rel
      (fun background background' =>
        background' = { background with length := background'.length })
      (backgroundOf profile first video) (backgroundOf profile second video) := by
  unfold backgroundOf
  by_cases hvideo : 0 < video
  · rw [if_pos hvideo, if_pos hvideo]
    exact .some rfl
  · rw [if_neg hvideo, if_neg hvideo]
    exact .none

/-- Music that does not say how loud it is gets pushed back by captions, and by
nothing else in the settings. -/
theorem soundtrackOf_congr
    (h : (∃ music, plan.music = some music ∧ music.volume = none) → plan.overlays ≠ [] →
      first.textMusicDuck = second.textMusicDuck) :
    soundtrackOf profile first plan = soundtrackOf profile second plan := by
  unfold soundtrackOf
  cases hmusic : plan.music with
  | none => rfl
  | some music =>
      cases hvolume : music.volume with
      | some volume => simp only [Option.map_some, Option.getD_some, hvolume]
      | none =>
          have hsame : musicVolume profile first plan = musicVolume profile second plan := by
            unfold musicVolume
            cases hoverlays : plan.overlays with
            | nil => rfl
            | cons overlay rest =>
                have hne : plan.overlays ≠ [] := by
                  rw [hoverlays]
                  exact List.cons_ne_nil overlay rest
                rw [h ⟨music, hmusic, hvolume⟩ hne]
          simp only [Option.map_some, hvolume, hsame]

/-- Two settings give the same soundtrack up to its volume, or none both. -/
theorem rel_soundtrackOf (first second : CompilerConfig α) :
    Option.Rel
      (fun soundtrack soundtrack' =>
        soundtrack' = { soundtrack with volume := soundtrack'.volume })
      (soundtrackOf profile first plan) (soundtrackOf profile second plan) := by
  unfold soundtrackOf
  cases plan.music with
  | none => exact .none
  | some music => exact .some rfl

end Settings

/-! ## All of them -/

/-- Two layouts assembled from one schedule differ by their settings alone. -/
theorem retuned_assemble (plan : Plan α) (modeKey platformKey : String)
    (first second : CompilerConfig α) (schedule : Schedule α) :
    Retuned first second plan (assemble plan modeKey platformKey first schedule)
      (assemble plan modeKey platformKey second schedule) where
  same := by dsimp only [assemble]
  clips := by
    rw [clips_assemble, clips_assemble,
      placeClips_volume _ (clipVolume _ first plan) (clipVolume _ second plan),
      List.forall₂_map_right_iff, List.forall₂_same]
    intro clip _
    rfl
  overlays := by
    rw [overlays_assemble, overlays_assemble, List.forall₂_map_left_iff,
      List.forall₂_map_right_iff, List.forall₂_same]
    intro entry _
    rfl
  background := by
    rw [background_assemble, background_assemble]
    exact rel_backgroundOf _ _ first second
  soundtrack := by
    rw [soundtrack_assemble, soundtrack_assemble]
    exact rel_soundtrackOf _ plan first second
  warnings := by
    refine ⟨_, _, _, _, warnings_assemble .., warnings_assemble .., ?_⟩
    intro warning hwarning
    rcases List.mem_append.mp hwarning with h | h
    · exact isAdjustment_of_mem h
    · exact isAdjustment_of_mem h
  of_overlays_ne := by
    intro hne
    by_contra hsame
    rw [not_or, not_not, not_not] at hsame
    -- with the same margins every caption stands as before, and no other warning reads a setting
    have hclamp := clamp_congr hsame.1 hsame.2
    rcases hne with hne | hne
    · apply hne
      rw [overlays_assemble, overlays_assemble, hclamp]
    · apply hne
      rw [warnings_assemble, warnings_assemble, hclamp]
  of_background_ne := by
    intro hne hsame
    apply hne
    rw [background_assemble, background_assemble]
    exact backgroundOf_congr _ _ hsame.symm
  of_clips_ne := by
    intro hne
    by_contra hsame
    -- clips read a setting only if there is music to duck them for
    have hvolume : ∀ profile, clipVolume profile first plan = clipVolume profile second plan := by
      intro profile
      apply clipVolume_congr
      intro hmusic
      by_contra hducked
      exact hsame ⟨hmusic, hducked⟩
    apply hne
    rw [clips_assemble, clips_assemble, hvolume]
  of_soundtrack_ne := by
    intro hne
    by_contra hsame
    apply hne
    rw [soundtrack_assemble, soundtrack_assemble]
    symm
    apply soundtrackOf_congr
    intro hsilent hoverlays
    by_contra hduck
    exact hsame ⟨hsilent, hoverlays, hduck⟩

/-- A layout does not look at the frame rate. -/
theorem assemble_withFps (plan : Plan α) (modeKey platformKey : String)
    (config : CompilerConfig α) (schedule : Schedule α) (fps : ℕ) :
    assemble plan modeKey platformKey (config.withFps fps) schedule
      = assemble plan modeKey platformKey config schedule := rfl

end Layout

namespace Compiler

variable {α : Type} [Scalar α]

/-- **Settings change numbers, never structure.**  Under any two choices of settings
that make sense a plan fails alike, or has two layouts that are the same up to the
numbers that the settings are for.  Another frame rate alone leaves the layout as it
is, and the payload in seconds up to the rate that it announces. -/
theorem settings_change_numbers (first second : Compiler α) (plan : Plan α)
    (modeKey platformKey : String) :
    Alike (Layout.Retuned first.config second.config plan)
      (first.layoutAs plan modeKey platformKey) (second.layoutAs plan modeKey platformKey) ∧
    ∀ fps, second.config = first.config.withFps fps →
      second.layoutAs plan modeKey platformKey = first.layoutAs plan modeKey platformKey ∧
      second.tracksAs plan modeKey platformKey =
        (first.tracksAs plan modeKey platformKey).map fun payload => { payload with fps } := by
  constructor
  · rw [layoutAs_eq_map, layoutAs_eq_map]
    apply Alike.map
    intro schedule
    exact Layout.retuned_assemble plan modeKey platformKey first.config second.config schedule
  · intro fps hfps
    have hassemble : Layout.assemble plan modeKey platformKey second.config
        = Layout.assemble plan modeKey platformKey first.config := by
      rw [hfps]
      funext schedule
      exact Layout.assemble_withFps plan modeKey platformKey first.config schedule fps
    have hlayout : second.layoutAs plan modeKey platformKey
        = first.layoutAs plan modeKey platformKey := by
      rw [layoutAs_eq_map, layoutAs_eq_map, hassemble]
    refine ⟨hlayout, ?_⟩
    rw [tracksAs_eq_map, tracksAs_eq_map, hlayout]
    cases first.layoutAs plan modeKey platformKey with
    | error fault => rfl
    | ok layout =>
        apply congrArg Except.ok
        rw [tracksOf, hfps]
        rfl

/-- The compiler with the standard settings at the frame rate of film. -/
def film : Compiler Float where
  config := CompilerConfig.standard.withFps 24
  sound := Option.isNone_iff_eq_none.mp (by decide +kernel)

/-- At another frame rate the sample has the same layout: only numbers of frames change. -/
theorem settings_change_numbers_of_frames_alone :
    ∃ layout, standard.layoutAs (.sample Float) "vlog" "tiktok" = .ok layout ∧
      film.layoutAs (.sample Float) "vlog" "tiktok" = .ok layout ∧
      Layout.Retuned standard.config film.config (.sample Float) layout layout := by
  have hcompiles : (standard.layoutAs (.sample Float) "vlog" "tiktok").toOption.any
      (fun _ => true) = true := by
    decide +kernel
  obtain ⟨layout, hlayout, _⟩ := exists_of_any hcompiles
  obtain ⟨halike, hrate⟩ := settings_change_numbers standard film (.sample Float) "vlog" "tiktok"
  obtain ⟨hsame, _⟩ := hrate 24 rfl
  rw [hsame, hlayout] at halike
  obtain ⟨other, hother, hretuned⟩ := halike.exists_of_ok
  obtain rfl := Except.ok.inj hother
  exact ⟨layout, hlayout, hsame.trans hlayout, hretuned⟩

end Compiler

end Montage
