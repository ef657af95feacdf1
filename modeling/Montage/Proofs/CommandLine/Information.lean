import Montage.Proofs.CommandLine.Runs
import Montage.Proofs.Payload.Coverage

/-!
# The frames that `info` prints

`info` makes its ranges of frames from the layout by itself, and the payload in frames makes
its own.  Both come from the same clock, so they agree for every clip (`clipLine_eq`).  They
agree for every caption whose edges are nearest to two different frames (`overlayLine_eq`);
for one that is shorter than that the payload has one frame, and `info` prints a range
without any.
-/

namespace Montage

/-- How a stretch of frames is printed: its first frame, the first frame behind it, and the
time of the first frame. -/
def FrameSpan.shown (span : FrameSpan) (clock : Clock) : String :=
  "frames " ++ toString span.start ++ ".." ++ toString span.stop
    ++ " (@" ++ Decimal.fixed 3 (clock.seconds span.start) ++ "s)"

namespace CommandLine

open FramePayload

/-- Lines about a layout that give the frames of a payload: how many there are, the range of
every clip, and the range of every caption, which is left empty for a caption that begins
and ends nearest to the same frame. -/
structure Lists (clock : Clock) (layout : Layout Float) (payload : FramePayload Float)
    (lines : List String) : Prop where
  total : lines[6]? = some ("  Visible: " ++ seconds layout.videoDuration ++ " ("
    ++ toString payload.duration ++ " frames @ " ++ toString payload.fps ++ "fps)")
  clips : ∀ {k : ℕ} {sequence : FrameSequence Float}, payload.sequences[k]? = some sequence →
    ∃ clip rest, layout.clips[k]? = some clip ∧
      lines[10 + k]? = some ("  [" ++ toString sequence.index ++ "] " ++ sequence.source
        ++ " @ " ++ seconds clip.start ++ " for " ++ seconds clip.length ++ "  "
        ++ sequence.span.shown clock ++ rest)
  captions : ∀ {k : ℕ} {caption : FrameOverlay}, payload.overlays[k]? = some caption →
    ∃ placed listed rest, layout.overlays[k]? = some placed ∧
      lines[12 + payload.sequences.length + k]? = some ("  [" ++ toString caption.index
        ++ "] \"" ++ caption.text ++ "\" @ " ++ seconds placed.start ++ " for "
        ++ seconds placed.duration ++ "  " ++ FrameSpan.shown listed clock ++ rest) ∧
      (clock.frame placed.start < clock.frame (placed.start + placed.duration) →
        listed = caption.span) ∧
      (clock.frame (placed.start + placed.duration) ≤ clock.frame placed.start →
        listed = ⟨caption.span.start, 0⟩ ∧ caption.span.duration = 1)

variable (clock : Clock)

theorem frameRange_eq (start length : Float) : frameRange clock start length
    = FrameSpan.shown ⟨clock.frame start, clock.span start length⟩ clock := rfl

/-- The line of a clip gives the frames of its sequence. -/
theorem clipLine_eq (clip : ClipPlacement Float) :
    ∃ rest, clipLine clock clip = "  [" ++ toString (sequenceOf clock clip).index ++ "] "
      ++ (sequenceOf clock clip).source ++ " @ " ++ seconds clip.start ++ " for "
      ++ seconds clip.length ++ "  " ++ (sequenceOf clock clip).span.shown clock ++ rest := by
  refine ⟨"  in=" ++ Vocabulary.word clip.transition.entry
    ++ " out=" ++ Vocabulary.word clip.transition.exit
    ++ " effect=" ++ wordOrDash clip.effect ++ " filter=" ++ wordOrDash clip.filter, ?_⟩
  unfold clipLine
  simp only [frameRange_eq, sequenceOf, String.append_assoc]

/-- The frames between the rounded edges of a caption. -/
def listedSpan (placed : OverlayPlacement Float) : FrameSpan :=
  ⟨clock.frame placed.start, clock.span placed.start placed.duration⟩

/-- The line of a caption gives the frames that are listed for it. -/
theorem overlayLine_eq (placed : OverlayPlacement Float) :
    ∃ rest, overlayLine clock placed = "  [" ++ toString (overlayOf clock placed).index
      ++ "] \"" ++ (overlayOf clock placed).text ++ "\" @ " ++ seconds placed.start ++ " for "
      ++ seconds placed.duration ++ "  " ++ (listedSpan clock placed).shown clock ++ rest := by
  refine ⟨"  (" ++ sizeName placed.style.size ++ ")", ?_⟩
  unfold overlayLine
  simp only [frameRange_eq, overlayOf, listedSpan, String.append_assoc]

/-- A caption whose edges are nearest to different frames is listed as it is shown. -/
theorem listedSpan_eq {placed : OverlayPlacement Float}
    (h : clock.frame placed.start < clock.frame (placed.start + placed.duration)) :
    listedSpan clock placed = (overlayOf clock placed).span := by
  have hspan : 1 ≤ clock.span placed.start placed.duration := Nat.sub_pos_of_lt h
  exact congrArg (FrameSpan.mk _) (max_eq_left hspan).symm

/-- A caption whose edges are nearest to the same frame is shown in it, and listed without
it. -/
theorem listedSpan_eq_empty {placed : OverlayPlacement Float}
    (h : clock.frame (placed.start + placed.duration) ≤ clock.frame placed.start) :
    listedSpan clock placed = ⟨(overlayOf clock placed).span.start, 0⟩ ∧
      (overlayOf clock placed).span.duration = 1 := by
  have hspan : clock.span placed.start placed.duration = 0 := Nat.sub_eq_zero_of_le h
  exact ⟨congrArg (FrameSpan.mk _) hspan, by rw [overlayOf, hspan]; rfl⟩

/-! ### The lines of `info`

There are ten of them on the whole, then one a clip, and if there are captions, two and one a
caption. -/

variable {clock} {layout : Layout Float} {path : String} {k : ℕ}

/-- The parts of a description: ten lines in front, then the clips, then the captions, if
there are any, and then the rest. -/
theorem exists_information_eq (path : String) (clock : Clock) (layout : Layout Float) :
    ∃ heading rest : List String, heading.length = 10 ∧
      heading[6]? = some ("  Visible: " ++ seconds layout.videoDuration ++ " ("
        ++ toString (clock.covering layout.videoDuration) ++ " frames @ " ++ toString clock.fps
        ++ "fps)") ∧
      information path clock layout = heading ++ (layout.clips.map (clipLine clock)
        ++ ((if layout.overlays.isEmpty then []
          else ["", "Overlays:"] ++ layout.overlays.map (overlayLine clock)) ++ rest)) := by
  unfold information
  simp only [List.append_assoc]
  exact ⟨_, _, rfl, rfl, rfl⟩

/-- The seventh line gives the number of frames that cover the video. -/
theorem information_total (path : String) (clock : Clock) (layout : Layout Float) :
    (information path clock layout)[6]? = some ("  Visible: " ++ seconds layout.videoDuration
      ++ " (" ++ toString (clock.covering layout.videoDuration) ++ " frames @ "
      ++ toString clock.fps ++ "fps)") := by
  obtain ⟨heading, rest, hlength, htotal, heq⟩ := exists_information_eq path clock layout
  rw [heq, List.getElem?_append_left (by omega), htotal]

/-- The lines of the clips follow each other behind the heading. -/
theorem information_clip {clip : ClipPlacement Float} (h : layout.clips[k]? = some clip) :
    (information path clock layout)[10 + k]? = some (clipLine clock clip) := by
  obtain ⟨heading, rest, hlength, -, heq⟩ := exists_information_eq path clock layout
  have hlt : k < (layout.clips.map (clipLine clock)).length := by
    rw [List.length_map]
    exact (List.getElem?_eq_some_iff.mp h).1
  rw [heq, List.getElem?_append_right (by omega), hlength, Nat.add_sub_cancel_left,
    List.getElem?_append_left hlt, List.getElem?_map, h, Option.map_some]

/-- The lines of the captions follow each other behind those of the clips and two lines
between. -/
theorem information_caption {placed : OverlayPlacement Float}
    (h : layout.overlays[k]? = some placed) :
    (information path clock layout)[12 + layout.clips.length + k]?
      = some (overlayLine clock placed) := by
  obtain ⟨heading, rest, hlength, -, heq⟩ := exists_information_eq path clock layout
  have hlt : k < layout.overlays.length := (List.getElem?_eq_some_iff.mp h).1
  have hsome : ¬ layout.overlays.isEmpty = true := by
    rw [List.isEmpty_iff]
    rintro hnil
    simp [hnil] at hlt
  have hmap : k < (layout.overlays.map (overlayLine clock)).length := by
    rwa [List.length_map]
  have hplace : 12 + layout.clips.length + k
      = heading.length + ((layout.clips.map (clipLine clock)).length
        + (["", "Overlays:"].length + k)) := by
    rw [hlength, List.length_map, List.length_cons, List.length_singleton]
    omega
  -- the heading, the clips and the two lines between are passed by, one after the other
  rw [heq, hplace, if_neg hsome, List.append_assoc, List.getElem?_append_right (by omega),
    Nat.add_sub_cancel_left, List.getElem?_append_right (by omega), Nat.add_sub_cancel_left,
    List.getElem?_append_right (by omega), Nat.add_sub_cancel_left,
    List.getElem?_append_left hmap, List.getElem?_map, h, Option.map_some]

/-- A description of a layout lists the frames of its payload. -/
theorem lists_information (path : String) (clock : Clock) (layout : Layout Float) :
    Lists clock layout (ofLayout clock layout) (information path clock layout) := by
  have hclips : (ofLayout clock layout).sequences = layout.clips.map (sequenceOf clock) := rfl
  have hoverlays : (ofLayout clock layout).overlays = layout.overlays.map (overlayOf clock) := rfl
  refine ⟨information_total path clock layout, fun {k sequence} hk => ?_, fun {k caption} hk => ?_⟩
  · rw [hclips, List.getElem?_map] at hk
    obtain ⟨clip, hclip, rfl⟩ := Option.map_eq_some_iff.mp hk
    obtain ⟨rest, hline⟩ := clipLine_eq clock clip
    exact ⟨clip, rest, hclip, by rw [information_clip hclip, hline]⟩
  · rw [hoverlays, List.getElem?_map] at hk
    obtain ⟨placed, hplaced, rfl⟩ := Option.map_eq_some_iff.mp hk
    obtain ⟨rest, hline⟩ := overlayLine_eq clock placed
    refine ⟨placed, listedSpan clock placed, rest, hplaced, ?_, listedSpan_eq clock,
      listedSpan_eq_empty clock⟩
    rw [hclips, List.length_map, information_caption hplaced, hline]

/-! ### Runs -/

namespace Scene

variable {scene : Scene}

/-- **What `info` prints is what is rendered, but for captions of no length in frames.**  On
any tree of files, for any plan and settings for which `info` succeeds, the plan has a payload
in frames, which the program prints when it is asked to, and the lines of `info` list it: the
number of its frames, the range of every clip, and the range of every caption whose edges are
nearest to different frames.  A caption whose edges are nearest to the same frame is shown in
that frame; `info` prints its range without the frame. -/
theorem info_lists_frames (h : (scene.run (.info path)).1.exitCode = 0) :
    ∃ (config : Config Float) (plan : Plan Float) (compiler : Compiler Float)
        (layout : Layout Float),
      scene.config = .ok config ∧ (outcome (Plan.load path) scene.opened.2).1 = .ok plan ∧
        compiler.config = config.compiler ∧ compiler.layout plan = .ok layout ∧
        compiler.frames plan = .ok (compiler.framesOf layout) ∧
        (scene.run (.compile path .frames none none none none)).1.output
          = unlines [(compiler.framesOf layout).toJson.pretty] ∧
        (scene.run (.info path)).1.output = unlines (information path compiler.clock layout) ∧
        Lists compiler.clock layout (compiler.framesOf layout)
          (information path compiler.clock layout) := by
  obtain ⟨compiler, layout, hfound⟩ := (exitCode_eq_zero_iff .info).mp h
  obtain ⟨config, plan, hconfig, hload, hsettings, hlayout⟩ := findings_eq_ok_iff.mp hfound
  have hcompiled : compiler.layout plan = .ok layout := hlayout
  have hframes : compiler.frames plan = .ok (compiler.framesOf layout) := by
    rw [Compiler.frames, hcompiled]
    rfl
  exact ⟨config, plan, compiler, layout, hconfig, hload, hsettings, hcompiled, hframes,
    output_of_findings_ok (.compile .frames none none none) rfl hfound,
    output_of_findings_ok .info rfl hfound, lists_information path compiler.clock layout⟩

/-- A call at one frame per second, with a plan whose caption lasts from 0.6 s to 1.1 s. -/
def blink : Scene where
  environment := ⟨none, none⟩
  verbose := false
  settings := some "settings.json"
  tree :=
    { entries := [
        (["work"], .directory),
        (["work", "settings.json"], .file "\x7b\"compiler\":\x7b\"fps\":1\x7d\x7d".toUTF8),
        (["work", "plan.json"], .file
          ("\x7b\"mode\":\"vlog\",\"platform\":\"youtube\","
            ++ "\"clips\":[\x7b\"sourceReference\":\"sea\",\"length\":4\x7d],"
            ++ "\"overlays\":[\x7b\"text\":\"Hi\",\"start\":0.6,\"duration\":0.5\x7d]\x7d").toUTF8)]
      start := ["work"] }

/-- The plan of `blink` has a layout: its caption is shown in frame 1, and its line gives no
frame. -/
theorem exists_blink_findings : ∃ compiler layout,
    blink.findings "plan.json" none none none = .ok (compiler, layout) ∧
      (compiler.framesOf layout).overlays.map (fun caption =>
        (caption.span.start, caption.span.stop)) = [(1, 2)] ∧
      (information "plan.json" compiler.clock layout).getLast?
        = some "  [0] \"Hi\" @ 0.60s for 0.50s  frames 1..1 (@1.000s)  (Large)" := by
  have hfound : (blink.findings "plan.json" none none none).toOption.any (fun found =>
      decide ((found.1.framesOf found.2).overlays.map (fun caption =>
          (caption.span.start, caption.span.stop)) = [(1, 2)] ∧
        (information "plan.json" found.1.clock found.2).getLast?
          = some "  [0] \"Hi\" @ 0.60s for 0.50s  frames 1..1 (@1.000s)  (Large)")) = true := by
    decide +kernel
  obtain ⟨⟨compiler, layout⟩, hfound, hlisted⟩ := Compiler.exists_of_any hfound
  exact ⟨compiler, layout, hfound, of_decide_eq_true hlisted⟩

/-- At one frame per second the caption of `blink` lies within one frame, and `info` lists it
all the same. -/
theorem info_lists_frames_of_short_caption :
    (blink.run (.info "plan.json")).1.exitCode = 0 ∧ ∃ compiler layout,
      (blink.run (.info "plan.json")).1.output
        = unlines (information "plan.json" (Compiler.clock compiler) layout) ∧
      Lists (Compiler.clock compiler) layout (Compiler.framesOf compiler layout)
        (information "plan.json" (Compiler.clock compiler) layout) := by
  obtain ⟨found, described, hfound, -⟩ := exists_blink_findings
  have hcode : (blink.run (.info "plan.json")).1.exitCode = 0 :=
    (exitCode_eq_zero_iff .info).mpr ⟨found, described, hfound⟩
  obtain ⟨_, _, compiler, layout, -, -, -, -, -, -, houtput, hlists⟩ := info_lists_frames hcode
  exact ⟨hcode, compiler, layout, houtput, hlists⟩

/-- The caption of `blink` is shown from frame 1 to frame 2, and `info` lists it from frame 1
to frame 1. -/
theorem blink_listed_without_frame :
    (blink.run (.info "plan.json")).1.exitCode = 0 ∧
      (∃ lines, (blink.run (.info "plan.json")).1.output = unlines lines ∧
        lines.getLast? = some "  [0] \"Hi\" @ 0.60s for 0.50s  frames 1..1 (@1.000s)  (Large)") ∧
      ∃ payload : FramePayload Float,
        (blink.run (.compile "plan.json" .frames none none none none)).1.output
          = unlines [payload.toJson.pretty] ∧
        payload.overlays.map (fun caption => (caption.span.start, caption.span.stop))
          = [(1, 2)] := by
  obtain ⟨compiler, layout, hfound, hspans, hline⟩ := exists_blink_findings
  exact ⟨(exitCode_eq_zero_iff .info).mpr ⟨compiler, layout, hfound⟩,
    ⟨information "plan.json" compiler.clock layout, output_of_findings_ok .info rfl hfound, hline⟩,
    ⟨compiler.framesOf layout,
      output_of_findings_ok (.compile .frames none none none) rfl hfound, hspans⟩⟩

end Scene

end CommandLine

end Montage
