import Montage.Payload.Tracks

/-!
# What each track holds

The tracks of a payload are found by their roles.  `track?_ofLayout` traces each
role back to the layout: the track of the video is always there, the other two
are there when the layout has something to put on them.
-/

namespace Montage

namespace TrackPayload

variable {α : Type} (fps : Nat) (layout : Layout α)

/-- The track of the video. -/
def videoTrack : Track α := ⟨.video, layout.clips.map videoClip⟩

theorem textTrack?_of_nil (h : layout.overlays = []) : textTrack? layout = none := by
  rw [textTrack?, h]
  rfl

/-- A video with captions has a text track that shows them in their order. -/
theorem textTrack?_of_ne_nil (h : layout.overlays ≠ []) :
    textTrack? layout = some ⟨.text, layout.overlays.map overlayClip⟩ := by
  rw [textTrack?, if_neg]
  simpa using h

/-- The track with a role is the one that the layout gives it. -/
theorem track?_ofLayout (role : TrackRole) :
    (ofLayout fps layout).track? role =
      match role with
      | .text => textTrack? layout
      | .video => some (videoTrack layout)
      | .background => backgroundTrack? layout := by
  have htext : textTrack? layout = none ∨ ∃ clips, textTrack? layout = some ⟨.text, clips⟩ := by
    by_cases h : layout.overlays = []
    · exact Or.inl (textTrack?_of_nil layout h)
    · exact Or.inr ⟨_, textTrack?_of_ne_nil layout h⟩
  have hbackground : backgroundTrack? layout = none ∨
      ∃ clips, backgroundTrack? layout = some ⟨.background, clips⟩ := by
    cases h : layout.background with
    | none => exact Or.inl (by rw [backgroundTrack?, h]; rfl)
    | some background => exact Or.inr ⟨_, by rw [backgroundTrack?, h]; rfl⟩
  rw [track?, ofLayout]
  rcases htext with ht | ⟨captions, ht⟩
  · rcases hbackground with hb | ⟨pages, hb⟩
    · rw [ht, hb]
      cases role <;> rfl
    · rw [ht, hb]
      cases role <;> rfl
  · rcases hbackground with hb | ⟨pages, hb⟩
    · rw [ht, hb]
      cases role <;> rfl
    · rw [ht, hb]
      cases role <;> rfl

/-- The clips on the track of the video are the clips of the layout. -/
theorem videoClips_ofLayout : (ofLayout fps layout).videoClips = layout.clips.map videoClip := by
  rw [videoClips, track?_ofLayout]
  rfl

/-- The captions of a payload are the captions of the layout, whether or not they
have a track. -/
theorem textClips_ofLayout : (ofLayout fps layout).textClips = layout.overlays.map overlayClip := by
  rw [textClips, track?_ofLayout]
  by_cases h : layout.overlays = []
  · simp only [textTrack?_of_nil layout h, h]
    rfl
  · simp only [textTrack?_of_ne_nil layout h]
    rfl

/-- The roles of the tracks from top to bottom, for a layout with a background. -/
theorem roles_ofLayout {background : Background α} (h : layout.background = some background) :
    (ofLayout fps layout).tracks.map Track.role =
      (if layout.overlays.isEmpty then [] else [.text]) ++ [.video, .background] := by
  cases hoverlays : layout.overlays with
  | nil =>
      simp only [ofLayout, textTrack?_of_nil layout hoverlays, backgroundTrack?, h]
      rfl
  | cons overlay rest =>
      have hne : layout.overlays ≠ [] := by simp [hoverlays]
      simp only [ofLayout, textTrack?_of_ne_nil layout hne, backgroundTrack?, h]
      rfl

/-- A layout with clips has no empty track. -/
theorem clips_ne_nil_of_mem (hclips : layout.clips ≠ []) {track : Track α}
    (htrack : track ∈ (ofLayout fps layout).tracks) : track.clips ≠ [] := by
  simp only [ofLayout, List.mem_append, List.mem_cons, Option.mem_toList] at htrack
  rcases htrack with htext | rfl | hbackground
  · by_cases hoverlays : layout.overlays = []
    · rw [textTrack?_of_nil layout hoverlays] at htext
      cases htext
    · rw [textTrack?_of_ne_nil layout hoverlays] at htext
      cases htext
      simpa using hoverlays
  · simpa using hclips
  · obtain ⟨background, _, rfl⟩ := Option.map_eq_some_iff.mp hbackground
    exact List.cons_ne_nil _ _

end TrackPayload

end Montage
