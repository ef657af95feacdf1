import Montage.Problem
import Montage.Proofs.Compiler

/-!
# Which plans are refused, and in which words

Before anything is placed three passes look for a fault: one over the settings,
one over the trims of all clips, one over their lengths.  The first fault of the
first pass that finds any is told, and a plan without clips is refused between
the second pass and the third.

`Verdict` says in which words a plan is refused, or that it is not.  It speaks of
the settings, the trims and the lengths alone; `Layout.refusal_exact` says that
the compiler keeps to it, and so that nothing else in a plan can cause or prevent
a refusal.
-/

namespace Montage

/-! ## The first of its kind -/

/-- The first element of a list with a property, and where it stands. -/
structure FirstAt {β : Type} (bad : β → Prop) (bs : List β) (index : ℕ) (b : β) : Prop where
  here : bs[index]? = some b
  holds : bad b
  before : ∀ j < index, ∀ other, bs[j]? = some other → ¬ bad other

namespace FirstAt

variable {β : Type} {bad : β → Prop} {b : β} {bs : List β}

theorem head (h : bad b) : FirstAt bad (b :: bs) 0 b :=
  ⟨rfl, h, fun j hj => absurd hj (Nat.not_lt_zero j)⟩

/-- In front of a good element the index of the first bad one grows by one. -/
theorem cons {index : ℕ} {found : β} (hb : ¬ bad b) (h : FirstAt bad bs index found) :
    FirstAt bad (b :: bs) (index + 1) found where
  here := h.here
  holds := h.holds
  before := by
    intro j hj other hother
    cases j with
    | zero =>
        obtain rfl : b = other := Option.some.inj hother
        exact hb
    | succ j => exact h.before j (by omega) other hother

/-- Behind an element with the property nothing is first. -/
theorem of_cons_bad {index : ℕ} {found : β} (hb : bad b) (h : FirstAt bad (b :: bs) index found) :
    index = 0 ∧ found = b := by
  cases index with
  | zero => exact ⟨rfl, (Option.some.inj h.here).symm⟩
  | succ index => exact absurd hb (h.before 0 (Nat.succ_pos index) b rfl)

/-- An element without the property can be left out in front. -/
theorem of_cons_good {index : ℕ} {found : β} (hb : ¬ bad b)
    (h : FirstAt bad (b :: bs) index found) :
    ∃ k, index = k + 1 ∧ FirstAt bad bs k found := by
  cases index with
  | zero =>
      obtain rfl : b = found := Option.some.inj h.here
      exact absurd h.holds hb
  | succ k =>
      refine ⟨k, rfl, h.here, h.holds, ?_⟩
      intro j hj other hother
      exact h.before (j + 1) (by omega) other hother

/-- Where there is one with the property there is a first. -/
theorem exists_of_mem (h : ∃ b ∈ bs, bad b) : ∃ index b, FirstAt bad bs index b := by
  induction bs with
  | nil =>
      obtain ⟨b, hb, _⟩ := h
      cases hb
  | cons b bs ih =>
      by_cases hb : bad b
      · exact ⟨0, b, .head hb⟩
      · obtain ⟨other, hother, hbad⟩ := h
        have hrest : other ∈ bs := by
          rcases List.mem_cons.mp hother with rfl | hrest
          · exact absurd hbad hb
          · exact hrest
        obtain ⟨index, found, hfirst⟩ := ih ⟨other, hrest, hbad⟩
        exact ⟨index + 1, found, hfirst.cons hb⟩

/-- Two tests that agree find the same first element. -/
theorem congr {bad' : β → Prop} {index : ℕ} (hiff : ∀ b, bad b ↔ bad' b)
    (h : FirstAt bad bs index b) : FirstAt bad' bs index b where
  here := h.here
  holds := (hiff b).mp h.holds
  before j hj other hother hbad := h.before j hj other hother ((hiff other).mpr hbad)

/-- The first bad element is what a search finds. -/
theorem find?_eq {p : β → Bool} {index : ℕ} (h : FirstAt (fun b => p b = true) bs index b) :
    bs.find? p = some b := by
  obtain ⟨hlt, hget⟩ := List.getElem?_eq_some_iff.mp h.here
  refine List.find?_eq_some_iff_getElem.mpr ⟨h.holds, index, hlt, hget, ?_⟩
  intro j hj
  simpa using h.before j hj _ (List.getElem?_eq_getElem (hj.trans hlt))

/-- The search for a fault ends at the first element that has one. -/
theorem firstFault_eq {γ : Type} {fault? : β → Option γ} {index : ℕ} {fault : γ}
    (h : FirstAt (fun b => fault? b ≠ none) bs index b) (start : ℕ)
    (hfault : fault? b = some fault) :
    firstFault fault? start bs = some (start + index, fault) := by
  induction bs generalizing start index with
  | nil => cases h.here
  | cons first rest ih =>
      cases hfirst : fault? first with
      | some found =>
          obtain ⟨rfl, rfl⟩ := of_cons_bad (by rw [hfirst]; exact Option.some_ne_none found) h
          rw [hfirst] at hfault
          simp only [firstFault, hfirst, hfault, Nat.add_zero]
      | none =>
          obtain ⟨k, rfl, hrest⟩ := of_cons_good (fun hne => hne hfirst) h
          simp only [firstFault, hfirst, ih hrest]
          congr 2
          omega

end FirstAt

/-! ## Settings -/

/-- A setting that can be out of range. -/
inductive Setting
  | frameRate
  | margin (which : Margin)
  | level (which : Level)
  deriving DecidableEq

/-- In the order in which they are declared. -/
def Setting.all : List Setting :=
  [.frameRate, .margin .overlayLookback, .margin .minOverlay, .margin .backgroundTail,
    .level .duckedClipVolume, .level .textMusicDuck]

/-- The name of a setting in the file of settings. -/
def Setting.name : Setting → String
  | .frameRate => "fps"
  | .margin which => which.name
  | .level which => which.name

namespace CompilerConfig

section Faults

variable {α : Type} [Scalar α] (config : CompilerConfig α)

/-- A frame rate of zero, a margin that is no time, or a volume that is not between
silence and full. -/
def Unusable : Setting → Prop
  | .frameRate => config.fps = 0
  | .margin which =>
    Scalar.isFinite (config.margin which) = false ∨ config.margin which < 0
  | .level which => ¬ (0 ≤ config.level which ∧ config.level which ≤ 1)

/-- The fault of a setting that is unusable. -/
def faultOf : Setting → ConfigFault α
  | .frameRate => .frameRateZero
  | .margin which => .margin which (config.margin which)
  | .level which => .level which (config.level which)

/-- The test by which a setting is refused. -/
def refuses : Setting → Bool
  | .frameRate => decide (config.fps = 0)
  | .margin which => !isMargin (config.margin which)
  | .level which => !isLevel (config.level which)

/-- A setting is refused exactly when it is unusable. -/
theorem refuses_iff (setting : Setting) :
    config.refuses setting = true ↔ config.Unusable setting := by
  cases setting with
  | frameRate => simp [refuses, Unusable]
  | margin which => simp [refuses, Unusable, isMargin, Bool.or_eq_true]
  | level which => simp [refuses, Unusable, isLevel, imp_iff_not_or]

/-- The fault that counts is that of the first setting that is refused. -/
theorem fault?_eq_find? :
    config.fault? = (Setting.all.find? config.refuses).map config.faultOf := by
  have hsearch : Setting.all.find? config.refuses =
      if config.fps = 0 then some .frameRate
      else (([Margin.overlayLookback, .minOverlay, .backgroundTail].find?
          fun which => !isMargin (config.margin which)).map Setting.margin).or
        (([Level.duckedClipVolume, .textMusicDuck].find?
          fun which => !isLevel (config.level which)).map Setting.level) := by
    change (Setting.frameRate :: ([Margin.overlayLookback, .minOverlay, .backgroundTail].map
      Setting.margin ++ [Level.duckedClipVolume, .textMusicDuck].map Setting.level)).find? _ = _
    by_cases hfps : config.fps = 0
    · have hrefused : config.refuses .frameRate = true := decide_eq_true hfps
      rw [if_pos hfps, List.find?_cons_of_pos hrefused]
    · have haccepted : ¬ config.refuses .frameRate = true := by simpa [refuses] using hfps
      rw [if_neg hfps, List.find?_cons_of_neg haccepted, List.find?_append, List.find?_map,
        List.find?_map]
      rfl
  rw [hsearch, fault?]
  by_cases hfps : config.fps = 0
  · rw [if_pos hfps, if_pos hfps]
    rfl
  · rw [if_neg hfps, if_neg hfps]
    cases [Margin.overlayLookback, .minOverlay, .backgroundTail].find?
        fun which => !isMargin (config.margin which) with
    | some which => rfl
    | none =>
        rw [Option.map_none, Option.none_or, Option.map_map]
        rfl

/-- The first setting that is unusable is the one at fault. -/
theorem fault?_of_firstAt {config : CompilerConfig α} {index : ℕ} {setting : Setting}
    (h : FirstAt config.Unusable Setting.all index setting) :
    config.fault? = some (config.faultOf setting) := by
  rw [fault?_eq_find?, (h.congr fun s => (config.refuses_iff s).symm).find?_eq]
  rfl

/-- Settings of which none is unusable have no fault. -/
theorem fault?_of_usable {config : CompilerConfig α} (h : ∀ setting, ¬ config.Unusable setting) :
    config.fault? = none := by
  rw [fault?_eq_find?, Option.map_eq_none_iff, List.find?_eq_none]
  intro setting _
  rw [refuses_iff]
  exact h setting

end Faults

/-- What is said of a setting at fault, behind its name. -/
def complaint (config : CompilerConfig Float) : Setting → String
  | .frameRate => " must be > 0"
  | .margin which =>
    " must be a finite, non-negative number of seconds (got "
      ++ Decimal.plain (config.margin which) ++ ")"
  | .level which => " must be within [0.0, 1.0] (got " ++ Decimal.plain (config.level which) ++ ")"

/-- A message about a setting begins with its name. -/
theorem message_faultOf (config : CompilerConfig Float) (setting : Setting) :
    (config.faultOf setting).message = setting.name ++ config.complaint setting := by
  have happend : ∀ name text number close : String,
      name ++ text ++ number ++ close = name ++ (text ++ number ++ close) := by
    intro name text number close
    simp only [String.append_assoc]
  cases setting with
  | frameRate =>
      have htext : "fps must be > 0" = "fps" ++ " must be > 0" := by decide
      exact htext
  | margin which => exact happend which.name _ _ _
  | level which => exact happend which.name _ _ _

end CompilerConfig

/-! ## Clips -/

namespace Clip

variable {α : Type} [Scalar α]

/-- The trim is no place in a file. -/
def BadTrim (clip : Clip α) : Prop :=
  Scalar.isFinite clip.trimStart = false ∨ clip.trimStart < 0

/-- The length is no time that can pass. -/
def NoLength (clip : Clip α) : Prop :=
  Scalar.isFinite clip.length = false ∨ clip.length ≤ 0

/-- The length leaves less than a second clear of two overlaps. -/
def TooShort (overlap : α) (clip : Clip α) : Prop :=
  clip.length + 1e-9 < 2.0 * overlap + 1.0

/-- A bad trim is reported with its value. -/
theorem trimFault?_of_badTrim {clip : Clip α} (h : clip.BadTrim) :
    Schedule.trimFault? clip.trimStart = some (.badTrim clip.trimStart) := by
  rw [Schedule.trimFault?, if_pos]
  simpa [BadTrim] using h

/-- A trim is reported exactly when it is bad. -/
theorem trimFault?_ne_none_iff (clip : Clip α) :
    Schedule.trimFault? clip.trimStart ≠ none ↔ clip.BadTrim := by
  constructor
  · intro h
    by_contra hgood
    refine h (if_neg ?_)
    simpa [BadTrim, not_or] using hgood
  · intro h
    rw [trimFault?_of_badTrim h]
    exact Option.some_ne_none _

/-- A clip without a length is reported with what it has for one. -/
theorem lengthFault?_of_noLength (overlap : α) {clip : Clip α} (h : clip.NoLength) :
    Schedule.lengthFault? overlap clip.length = some (.badLength clip.length) := by
  rw [Schedule.lengthFault?, if_pos]
  simpa [NoLength] using h

/-- A clip that is too short is reported with its length, the minimum and the overlap. -/
theorem lengthFault?_of_tooShort {overlap : α} {clip : Clip α} (hlength : ¬ clip.NoLength)
    (h : clip.TooShort overlap) :
    Schedule.lengthFault? overlap clip.length
      = some (.tooShort clip.length (Schedule.minLength overlap) overlap) := by
  have hshort : clip.length + 1e-9 < Schedule.minLength overlap := h
  rw [Schedule.lengthFault?, if_neg, if_pos hshort]
  simpa [NoLength, not_or] using hlength

/-- A length is reported exactly when it is none or too short. -/
theorem lengthFault?_ne_none_iff (overlap : α) (clip : Clip α) :
    Schedule.lengthFault? overlap clip.length ≠ none ↔ clip.NoLength ∨ clip.TooShort overlap := by
  constructor
  · intro h
    by_contra hgood
    obtain ⟨hlength, hlong⟩ := not_or.mp hgood
    have hshort : ¬ clip.length + 1e-9 < Schedule.minLength overlap := hlong
    refine h ?_
    rw [Schedule.lengthFault?, if_neg, if_neg hshort]
    simpa [NoLength, not_or] using hlength
  · rintro h
    by_cases hlength : clip.NoLength
    · rw [lengthFault?_of_noLength overlap hlength]
      exact Option.some_ne_none _
    · rw [lengthFault?_of_tooShort hlength (h.resolve_left hlength)]
      exact Option.some_ne_none _

end Clip

/-! ## The verdict -/

/-- In which words a plan is refused, if it is, where adjacent clips share
`overlap` seconds. -/
inductive Verdict (config : CompilerConfig Float) (overlap : Float) (clips : List (Clip Float)) :
    Option Problem → Prop
  | setting {index : ℕ} {setting : Setting}
      (first : FirstAt config.Unusable Setting.all index setting) :
      Verdict config overlap clips (some (.config (setting.name ++ config.complaint setting)))
  | trim {index : ℕ} {clip : Clip Float} (usable : ∀ setting, ¬ config.Unusable setting)
      (first : FirstAt Clip.BadTrim clips index clip) :
      Verdict config overlap clips
        (some (.invalidPlan (some index) (ClipFault.badTrim clip.trimStart).message))
  | noClips (usable : ∀ setting, ¬ config.Unusable setting) (empty : clips = []) :
      Verdict config overlap clips (some (.invalidPlan none "plan has no clips"))
  | noLength {index : ℕ} {clip : Clip Float} (usable : ∀ setting, ¬ config.Unusable setting)
      (trims : ∀ clip ∈ clips, ¬ clip.BadTrim)
      (first : FirstAt (fun clip => clip.NoLength ∨ clip.TooShort overlap) clips index clip)
      (noLength : clip.NoLength) :
      Verdict config overlap clips
        (some (.invalidPlan (some index) (ClipFault.badLength clip.length).message))
  | tooShort {index : ℕ} {clip : Clip Float} (usable : ∀ setting, ¬ config.Unusable setting)
      (trims : ∀ clip ∈ clips, ¬ clip.BadTrim)
      (first : FirstAt (fun clip => clip.NoLength ∨ clip.TooShort overlap) clips index clip)
      (length : ¬ clip.NoLength) :
      Verdict config overlap clips (some (.invalidPlan (some index)
        (ClipFault.tooShort clip.length (2.0 * overlap + 1.0) overlap).message))
  | accepted (usable : ∀ setting, ¬ config.Unusable setting)
      (trims : ∀ clip ∈ clips, ¬ clip.BadTrim) (nonempty : clips ≠ [])
      (lengths : ∀ clip ∈ clips, ¬ (clip.NoLength ∨ clip.TooShort overlap)) :
      Verdict config overlap clips none

/-- There is a verdict on every plan. -/
theorem Verdict.exists (config : CompilerConfig Float) (overlap : Float)
    (clips : List (Clip Float)) : ∃ outcome, Verdict config overlap clips outcome := by
  by_cases hconfig : ∃ setting ∈ Setting.all, config.Unusable setting
  · obtain ⟨index, setting, hfirst⟩ := FirstAt.exists_of_mem hconfig
    exact ⟨_, .setting hfirst⟩
  have husable : ∀ setting, ¬ config.Unusable setting := by
    intro setting hsetting
    refine hconfig ⟨setting, ?_, hsetting⟩
    rcases setting with _ | which | which
    · decide
    · cases which <;> decide
    · cases which <;> decide
  by_cases htrim : ∃ clip ∈ clips, clip.BadTrim
  · obtain ⟨index, clip, hfirst⟩ := FirstAt.exists_of_mem htrim
    exact ⟨_, .trim husable hfirst⟩
  have htrims : ∀ clip ∈ clips, ¬ clip.BadTrim := fun clip hclip hbad => htrim ⟨clip, hclip, hbad⟩
  by_cases hempty : clips = []
  · exact ⟨_, .noClips husable hempty⟩
  by_cases hlength : ∃ clip ∈ clips, clip.NoLength ∨ clip.TooShort overlap
  · obtain ⟨index, clip, hfirst⟩ := FirstAt.exists_of_mem hlength
    by_cases hnone : clip.NoLength
    · exact ⟨_, .noLength husable htrims hfirst hnone⟩
    · exact ⟨_, .tooShort husable htrims hfirst hnone⟩
  · exact ⟨_, .accepted husable htrims hempty fun clip hclip hbad => hlength ⟨clip, hclip, hbad⟩⟩

namespace Layout

/-- What the user is told where a plan has no layout. -/
def refusal? (plan : Plan Float) (modeKey platformKey : String) (config : CompilerConfig Float) :
    Option Problem :=
  match computeAs plan modeKey platformKey config with
  | .error fault => some fault.problem
  | .ok _ => none

/-- A refusal is decided by the settings, the trims and the lengths, before
anything is placed. -/
theorem refusal?_eq (plan : Plan Float) (modeKey platformKey : String)
    (config : CompilerConfig Float) :
    refusal? plan modeKey platformKey config =
      match schedule plan (Mode.resolve modeKey) config with
      | .error fault => some fault.problem
      | .ok _ => none := by
  rw [refusal?, computeAs]
  cases schedule plan (Mode.resolve modeKey) config with
  | error fault => rfl
  | ok schedule => rfl

/-- No mode has transitions that last less than no time. -/
theorem overlapOf_transitionDuration (mode : Mode) :
    Schedule.overlapOf (mode.profile (α := Float)).transitionDuration
      = mode.profile.transitionDuration := by
  cases mode <;> rfl

/-- Trims that are in order leave the lengths to be looked at. -/
theorem estimateClips_of_trims {transition : Float} {clips : List (Clip Float)}
    (htrims : ∀ clip ∈ clips, ¬ clip.BadTrim) :
    Schedule.estimateClips transition clips
      = Schedule.estimate transition (clips.map Clip.length) := by
  have hnone : firstFault (fun clip => Schedule.trimFault? clip.trimStart) 0 clips = none := by
    rw [firstFault_eq_none_iff]
    intro clip hclip
    by_contra hne
    exact htrims clip hclip ((Clip.trimFault?_ne_none_iff clip).mp hne)
  rw [Schedule.estimateClips, hnone]

/-- The first length at fault is told, with what is wrong with it. -/
theorem estimate_of_firstAt {transition : Float} {clips : List (Clip Float)} {index : ℕ}
    {clip : Clip Float} {fault : ClipFault Float}
    (first : FirstAt (fun clip => clip.NoLength ∨ clip.TooShort (Schedule.overlapOf transition))
      clips index clip)
    (hfault : Schedule.lengthFault? (Schedule.overlapOf transition) clip.length = some fault) :
    Schedule.estimate transition (clips.map Clip.length) = .error (.clip index fault) := by
  have hsearch := (first.congr fun clip =>
    (Clip.lengthFault?_ne_none_iff (Schedule.overlapOf transition) clip).symm).firstFault_eq
      0 hfault
  rw [Nat.zero_add, ← firstFault_map Clip.length] at hsearch
  have hne : (clips.map Clip.length).isEmpty = false := by
    cases clips with
    | nil => cases first.here
    | cons clip rest => rfl
  simp only [Schedule.estimate, Schedule.fault?, hne, hsearch]
  rfl

/-- The verdict of the description is the refusal of the compiler. -/
theorem refusal?_of_verdict {plan : Plan Float} {modeKey : String} (platformKey : String)
    {config : CompilerConfig Float} {outcome : Option Problem}
    (h : Verdict config (Mode.resolve modeKey).profile.transitionDuration plan.clips outcome) :
    refusal? plan modeKey platformKey config = outcome := by
  have hoverlap := overlapOf_transitionDuration (Mode.resolve modeKey)
  rw [refusal?_eq]
  rw [← hoverlap] at h
  -- each verdict says that what is checked in front of it has passed
  cases h with
  | setting first =>
      simp only [schedule, CompilerConfig.fault?_of_firstAt first]
      exact congrArg (fun text => some (Problem.config text)) (config.message_faultOf _)
  | trim usable first =>
      have hfirst := (first.congr fun clip =>
        (Clip.trimFault?_ne_none_iff clip).symm).firstFault_eq 0
          (Clip.trimFault?_of_badTrim first.holds)
      rw [Nat.zero_add] at hfirst
      simp only [schedule, CompilerConfig.fault?_of_usable usable, Schedule.estimateClips, hfirst]
      rfl
  | noClips usable empty =>
      simp only [schedule, CompilerConfig.fault?_of_usable usable, empty]
      rfl
  | noLength usable trims first noLength =>
      simp only [schedule, CompilerConfig.fault?_of_usable usable, estimateClips_of_trims trims,
        estimate_of_firstAt first (Clip.lengthFault?_of_noLength _ noLength)]
      rfl
  | tooShort usable trims first length =>
      have hshort := first.holds.resolve_left length
      simp only [schedule, CompilerConfig.fault?_of_usable usable, estimateClips_of_trims trims,
        estimate_of_firstAt first (Clip.lengthFault?_of_tooShort length hshort)]
      rfl
  | accepted usable trims nonempty lengths =>
      have haccepted : ∀ clip ∈ plan.clips, Schedule.Accepted
          (Schedule.overlapOf (Mode.resolve modeKey).profile.transitionDuration) clip := by
        intro clip hclip
        constructor
        · by_contra hne
          exact trims clip hclip ((Clip.trimFault?_ne_none_iff clip).mp hne)
        · by_contra hne
          exact lengths clip hclip ((Clip.lengthFault?_ne_none_iff _ clip).mp hne)
      simp only [schedule, CompilerConfig.fault?_of_usable usable,
        Schedule.estimateClips_eq_ok_iff.mpr ⟨nonempty, haccepted, rfl⟩]

/-- What is looked at of a clip before anything is placed. -/
def timing (clip : Clip Float) : Float × Float := (clip.trimStart, clip.length)

/-- The schedule is a matter of trims and lengths. -/
theorem estimateClips_congr {transition : Float} {clips clips' : List (Clip Float)}
    (h : clips'.map timing = clips.map timing) :
    Schedule.estimateClips transition clips' = Schedule.estimateClips transition clips := by
  have htrims : clips'.map Clip.trimStart = clips.map Clip.trimStart := by
    have hfst := congrArg (List.map Prod.fst) h
    rwa [List.map_map, List.map_map] at hfst
  have hlengths : clips'.map Clip.length = clips.map Clip.length := by
    have hsnd := congrArg (List.map Prod.snd) h
    rwa [List.map_map, List.map_map] at hsnd
  exact Schedule.estimateClips_congr htrims hlengths

/-- **Which plans are refused.**  A plan is refused in the words of its verdict and
accepted where the verdict is none; and a plan with the same trims and lengths
under a key of the same mode has the same fate, whatever else is in it. -/
theorem refusal_exact (plan : Plan Float) (modeKey platformKey : String)
    (config : CompilerConfig Float) :
    (∀ outcome, refusal? plan modeKey platformKey config = outcome ↔
      Verdict config (Mode.resolve modeKey).profile.transitionDuration plan.clips outcome) ∧
    ∀ (plan' : Plan Float) (modeKey' platformKey' : String),
      plan'.clips.map timing = plan.clips.map timing →
      Mode.resolve modeKey' = Mode.resolve modeKey →
        refusal? plan' modeKey' platformKey' config
          = refusal? plan modeKey platformKey config := by
  constructor
  · intro outcome
    constructor
    · rintro rfl
      obtain ⟨outcome, hverdict⟩ := Verdict.exists config
        (Mode.resolve modeKey).profile.transitionDuration plan.clips
      rwa [refusal?_of_verdict platformKey hverdict]
    · exact refusal?_of_verdict platformKey
  · intro plan' modeKey' platformKey' htimings hmode
    rw [refusal?_eq, refusal?_eq, hmode, schedule, schedule, estimateClips_congr htimings]

/-- A plan whose first clip is too short for any mode, and whose second begins before
its file does. -/
def flawedPlan (mode platform : String) (overlays : List (Overlay Float)) : Plan Float where
  mode := mode
  platform := platform
  clips := [.ofLength "blink" 0.5, (Clip.ofLength "walk" 4).trimmed (-1)]
  overlays := overlays
  music := none

/-- The trims of all clips come before the length of any. -/
theorem refusal_exact_trim_before_length :
    Verdict .standard (Mode.resolve "vlog").profile.transitionDuration
      (flawedPlan "vlog" "tiktok" []).clips
      (some (.invalidPlan (some 1) (ClipFault.badTrim (-1 : Float)).message)) ∧
    refusal? (flawedPlan "" "" [⟨"Day one", -1 / 0, 0 / 0, .top⟩]) " VLOG " "nowhere" .standard
      = refusal? (flawedPlan "vlog" "tiktok" []) "vlog" "tiktok" .standard := by
  have hexact := refusal_exact (flawedPlan "vlog" "tiktok" []) "vlog" "tiktok" .standard
  exact ⟨(hexact.1 _).mp rfl, hexact.2 _ _ _ rfl (by decide +kernel)⟩

end Layout

end Montage
