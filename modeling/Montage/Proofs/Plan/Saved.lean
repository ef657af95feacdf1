import Montage.Proofs.Plan.RoundTrip
import Montage.Proofs.Stored

/-!
# Plans that are saved are loaded again

A plan that a program comes by has been read from a text or put together from finite
numbers (`Plan.Assembled`).  Either way it can be written and read back, and once it has
been saved to a file, loading the file gives the same plan, or refuses it if it has no
clips.
-/

namespace Montage

open Json

/-! ## Plans that are put together -/

/-- A clip that is put together from finite numbers. -/
inductive Clip.Assembled : Clip Float → Prop
  | ofLength (sourceReference : String) {length : Float} (finite : Scalar.isFinite length = true) :
      Assembled (.ofLength sourceReference length)
  | trimmed {clip : Clip Float} {trimStart : Float} (assembled : Assembled clip)
      (finite : Scalar.isFinite trimStart = true) : Assembled (clip.trimmed trimStart)
  | withEffect {clip : Clip Float} (assembled : Assembled clip) (effect : Effect) :
      Assembled (clip.withEffect effect)
  | withFilter {clip : Clip Float} (assembled : Assembled clip) (filter : Filter) :
      Assembled (clip.withFilter filter)
  | withTransition {clip : Clip Float} (assembled : Assembled clip) (pair : TransitionPair) :
      Assembled (clip.withTransition pair)

/-- A caption that is put together from finite numbers. -/
inductive Overlay.Assembled : Overlay Float → Prop
  | ofSpan (text : String) {start duration : Float} (start_finite : Scalar.isFinite start = true)
      (duration_finite : Scalar.isFinite duration = true) :
      Assembled (.ofSpan text start duration)
  | placed {overlay : Overlay Float} (assembled : Assembled overlay) (position : Position) :
      Assembled (overlay.placed position)

/-- Music that is put together from finite numbers. -/
inductive Music.Assembled : Music Float → Prop
  | ofReference (sourceReference : String) : Assembled (.ofReference sourceReference)
  | withVolume {music : Music Float} {volume : Float} (assembled : Assembled music)
      (finite : Scalar.isFinite volume = true) : Assembled (music.withVolume volume)

/-- A plan that has been read from a text, or is put together from finite numbers, or both. -/
inductive Plan.Assembled : Plan Float → Prop
  | parsed {text : String} {plan : Plan Float} (read : Plan.parse text = .ok plan) : Assembled plan
  | empty (mode platform : String) : Assembled (.empty mode platform)
  | withClip {plan : Plan Float} {clip : Clip Float} (assembled : Assembled plan)
      (part : clip.Assembled) : Assembled (plan.withClip clip)
  | withOverlay {plan : Plan Float} {overlay : Overlay Float} (assembled : Assembled plan)
      (part : overlay.Assembled) : Assembled (plan.withOverlay overlay)
  | withMusic {plan : Plan Float} {music : Music Float} (assembled : Assembled plan)
      (part : music.Assembled) : Assembled (plan.withMusic music)

/-- A clip that was put together in memory can be stored: it carries no hints. -/
theorem Clip.Assembled.storable {clip : Clip Float} (h : clip.Assembled) (levels : ℕ) :
    clip.Storable levels := by
  have hnone : clip.hints = none := by
    induction h with
    | ofLength => rfl
    | _ => assumption
  suffices hfinite : Scalar.isFinite clip.trimStart = true ∧ Scalar.isFinite clip.length = true from
    ⟨hfinite.1, hfinite.2, fun hints hhints => by simp [hnone] at hhints⟩
  clear hnone
  induction h with
  | ofLength _ finite => exact ⟨isFinite_zero, finite⟩
  | trimmed _ finite ih => exact ⟨finite, ih.2⟩
  | withEffect _ _ ih => exact ih
  | withFilter _ _ ih => exact ih
  | withTransition _ _ ih => exact ih

/-- A caption that was put together in memory can be stored. -/
theorem Overlay.Assembled.storable {overlay : Overlay Float} (h : overlay.Assembled) :
    overlay.Storable := by
  induction h with
  | ofSpan _ start duration => exact ⟨start, duration⟩
  | placed _ _ ih => exact ⟨ih.start, ih.duration⟩

/-- Music that was put together in memory can be stored. -/
theorem Music.Assembled.storable {music : Music Float} (h : music.Assembled) : music.Storable := by
  induction h with
  | ofReference => exact fun _ hvolume => nomatch hvolume
  | withVolume _ finite _ =>
      intro volume hvolume
      cases hvolume
      exact finite

/-- A plan that was put together in memory can be stored. -/
theorem Plan.Assembled.storable {plan : Plan Float} (h : plan.Assembled) : plan.Storable := by
  induction h with
  | parsed read => exact Plan.storable_of_parse read
  | empty =>
      exact ⟨(fun _ hclip => nomatch hclip), (fun _ hoverlay => nomatch hoverlay),
        (fun _ hmusic => nomatch hmusic)⟩
  | withClip _ part ih =>
      refine ⟨fun clip hclip => ?_, ih.overlays, ih.music⟩
      rcases List.mem_append.mp hclip with hclip | hclip
      · exact ih.clips clip hclip
      · obtain rfl := List.mem_singleton.mp hclip
        exact part.storable hintLevels
  | withOverlay _ part ih =>
      refine ⟨ih.clips, fun overlay hoverlay => ?_, ih.music⟩
      rcases List.mem_append.mp hoverlay with hoverlay | hoverlay
      · exact ih.overlays overlay hoverlay
      · obtain rfl := List.mem_singleton.mp hoverlay
        exact part.storable
  | withMusic _ part ih =>
      refine ⟨ih.clips, ih.overlays, fun music hmusic => ?_⟩
      cases hmusic
      exact part.storable

/-! ## Files -/

/-- A plan is saved by a write of its text. -/
theorem Plan.exists_write_of_save {plan : Plan Float} {path : String} {tree after : Tree}
    (h : outcome (Plan.save plan path) tree = (.ok (), after)) :
    ∃ between : Tree, between.write path plan.toJson.pretty.toUTF8 = .ok after := by
  unfold Plan.save at h
  split at h
  · obtain ⟨_, between, -, h⟩ := exists_of_outcome_bind h
    exact ⟨between, write_of_writeText (ok_of_tellingOf h)⟩
  · exact ⟨tree, write_of_writeText (ok_of_tellingOf h)⟩

/-- A file is loaded as its text is read, but a plan without clips is refused. -/
theorem Plan.outcome_load {path text : String} {tree : Tree} {plan : Plan Float}
    (hread : tree.read path = .ok text.toUTF8) (hparse : Plan.parse text = .ok plan) :
    outcome (Plan.load path) tree
      = (if plan.clips.isEmpty then .error (.noClips path) else .ok plan, tree) := by
  unfold Plan.load
  rw [outcome_bind, outcome_tellingOf, outcome_readText hread]
  simp only [Except.mapError, hparse]
  split <;> rfl

/-! ## There and back -/

/-- A plan that has been read, or put together from finite numbers, is read back from its
text, be it without blanks or with a line for every item, and is then written as the same
text.  Once it has been saved, loading the file gives it back, and refuses it exactly if it
has no clips. -/
theorem Plan.round_trip {plan : Plan Float} (h : plan.Assembled) :
    (∀ spacing ∈ [Spacing.compact, Spacing.pretty],
      Plan.parse (plan.toJson.render spacing) = .ok plan ∧
        ∀ again, Plan.parse (plan.toJson.render spacing) = .ok again →
          again.toJson.render spacing = plan.toJson.render spacing) ∧
      ∀ (path : String) (tree after : Tree),
        outcome (Plan.save plan path) tree = (.ok (), after) →
          outcome (Plan.load path) after
            = (if plan.clips = [] then .error (.noClips path) else .ok plan, after) := by
  have hread : ∀ {spacing : Spacing}, spacing.Blank →
      Plan.parse (plan.toJson.render spacing) = .ok plan :=
    fun hspacing => Plan.parse_render h.storable hspacing
  refine ⟨fun spacing hspacing => ?_, fun path tree after hsave => ?_⟩
  · have hblank : spacing.Blank := by
      rcases List.mem_cons.mp hspacing with rfl | hspacing
      · exact Spacing.blank_compact
      · obtain rfl := List.mem_singleton.mp hspacing
        exact Spacing.blank_pretty
    refine ⟨hread hblank, fun again hagain => ?_⟩
    cases (hread hblank).symm.trans hagain
    rfl
  · obtain ⟨between, hwrite⟩ := Plan.exists_write_of_save hsave
    rw [Plan.outcome_load (Tree.read_of_write hwrite) (hread Spacing.blank_pretty)]
    cases plan.clips <;> rfl

/-- A plan with a clip and a caption, put together step by step. -/
def Plan.postcard : Plan Float :=
  ((Plan.empty "vlog" "tiktok").withClip ((Clip.ofLength "coast.mp4" 7.3).trimmed 0.1)).withOverlay
    ((Overlay.ofSpan "\"Ahoi\"" 1e-7 2.5).placed .bottom)

/-- A postcard with footage is loaded as it was saved; an empty plan is saved, but refused
when loaded. -/
theorem Plan.round_trip_with_and_without_footage :
    Plan.parse Plan.postcard.toJson.compact = .ok Plan.postcard ∧
      (∃ after,
        outcome (Plan.save Plan.postcard "plans/postcard.json") Tree.empty = (.ok (), after) ∧
        outcome (Plan.load "plans/postcard.json") after = (.ok Plan.postcard, after)) ∧
      ∃ after, outcome (Plan.save (Plan.empty "vlog" "tiktok") "empty.json") Tree.empty
          = (.ok (), after) ∧
        outcome (Plan.load "empty.json") after = (.error (.noClips "empty.json"), after) := by
  have hclip : ((Clip.ofLength "coast.mp4" 7.3).trimmed 0.1).Assembled :=
    .trimmed (.ofLength "coast.mp4" (by decide +kernel)) (by decide +kernel)
  have hcaption : ((Overlay.ofSpan "\"Ahoi\"" 1e-7 2.5).placed .bottom).Assembled :=
    .placed (.ofSpan "\"Ahoi\"" (by decide +kernel) (by decide +kernel)) .bottom
  have hkept := Plan.round_trip (.withOverlay (.withClip (.empty "vlog" "tiktok") hclip) hcaption)
  have hempty := Plan.round_trip (.empty "vlog" "tiktok")
  have hsaved : (outcome (Plan.save Plan.postcard "plans/postcard.json") Tree.empty).1.toBool
      = true := by
    decide +kernel
  have hwritten :
      (outcome (Plan.save (Plan.empty "vlog" "tiktok") "empty.json") Tree.empty).1.toBool
      = true := by
    decide +kernel
  obtain ⟨after, hafter⟩ := exists_of_toBool hsaved
  obtain ⟨later, hlater⟩ := exists_of_toBool hwritten
  exact ⟨(hkept.1 Spacing.compact List.mem_cons_self).1,
    ⟨after, hafter, hkept.2 "plans/postcard.json" Tree.empty after hafter⟩,
    ⟨later, hlater, hempty.2 "empty.json" Tree.empty later hlater⟩⟩

end Montage
