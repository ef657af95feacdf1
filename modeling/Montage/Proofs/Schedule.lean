import Mathlib.Data.List.GetD
import Montage.Proofs.Numbers.Exact
import Montage.Schedule

/-!
# Schedules

A schedule exists exactly for footage that is not empty and of which every clip
passes its two checks; `estimateClips_eq_ok_iff` says so for numbers of any kind.

In exact arithmetic the beginnings have a closed form.  `offset` gives it: the
footage in front of a clip, less one overlap for each clip in front of it.
-/

namespace Montage

/-- A list has no first fault exactly when none of its elements has a fault. -/
theorem firstFault_eq_none_iff {β γ : Type} {fault? : β → Option γ} {index : Nat} {bs : List β} :
    firstFault fault? index bs = none ↔ ∀ b ∈ bs, fault? b = none := by
  induction bs generalizing index with
  | nil => simp [firstFault]
  | cons b bs ih =>
      cases h : fault? b with
      | none => simp [firstFault, h, ih]
      | some fault => simp [firstFault, h]

/-- Searching a list that was mapped is searching the list with the mapped test. -/
theorem firstFault_map {β β' γ : Type} (f : β' → β) (fault? : β → Option γ) (index : ℕ)
    (bs : List β') :
    firstFault fault? index (bs.map f) = firstFault (fun b => fault? (f b)) index bs := by
  induction bs generalizing index with
  | nil => rfl
  | cons b bs ih => simp only [List.map_cons, firstFault, ih]

namespace Schedule

section Acceptance

variable {α : Type} [Scalar α] {overlap transition : α}

/-- A length passes when it is finite, positive and at least the minimum up to the
tolerance. -/
theorem lengthFault?_eq_none_iff {length : α} :
    lengthFault? overlap length = none ↔
      Scalar.isFinite length = true ∧ ¬ length ≤ 0 ∧
        ¬ length + 1e-9 < minLength overlap := by
  unfold lengthFault?
  by_cases hbad : !Scalar.isFinite length || decide (length ≤ 0)
  · rw [if_pos hbad]
    constructor
    · intro h
      cases h
    · rintro ⟨hfin, hpos, _⟩
      simp [hfin, hpos] at hbad
  · rw [if_neg hbad]
    simp only [Bool.or_eq_true, Bool.not_eq_true', decide_eq_true_eq, not_or,
      Bool.not_eq_false] at hbad
    by_cases hshort : length + 1e-9 < minLength overlap
    · simp [hshort]
    · simp [hshort, hbad]

/-- A list of lengths passes when it is not empty and each of its lengths passes. -/
theorem fault?_eq_none_iff {lengths : List α} :
    fault? overlap lengths = none ↔
      lengths ≠ [] ∧ ∀ length ∈ lengths, lengthFault? overlap length = none := by
  unfold fault?
  cases lengths with
  | nil => simp
  | cons length rest =>
      simp only [List.isEmpty_cons, Bool.false_eq_true, ↓reduceIte, Option.map_eq_none_iff,
        firstFault_eq_none_iff, ne_eq, reduceCtorEq, not_false_eq_true, true_and]

/-- Lengths have a schedule exactly when there are some and nothing is wrong with them. -/
theorem estimate_eq_ok_iff {lengths : List α} {schedule : Schedule α} :
    estimate transition lengths = .ok schedule ↔
      fault? (overlapOf transition) lengths = none ∧
        schedule = ofLengths (overlapOf transition) lengths := by
  dsimp only [estimate]
  cases fault? (overlapOf transition) lengths with
  | some fault => simp
  | none => simp [eq_comm]

/-- What a clip has to be for a schedule to exist. -/
def Accepted (overlap : α) (clip : Clip α) : Prop :=
  trimFault? clip.trimStart = none ∧ lengthFault? overlap clip.length = none

/-- Footage has a schedule exactly when there is some and every clip is
accepted, and the schedule is the one of its lengths. -/
theorem estimateClips_eq_ok_iff {clips : List (Clip α)} {schedule : Schedule α} :
    estimateClips transition clips = .ok schedule ↔
      clips ≠ [] ∧ (∀ clip ∈ clips, Accepted (overlapOf transition) clip) ∧
        schedule = ofLengths (overlapOf transition) (clips.map Clip.length) := by
  unfold estimateClips
  -- trims are looked at before anything else, so they decide first
  cases htrim : firstFault (fun clip => trimFault? clip.trimStart) 0 clips with
  | some found =>
      have hnot : ¬ ∀ clip ∈ clips, trimFault? clip.trimStart = none := by
        intro h
        rw [firstFault_eq_none_iff.mpr h] at htrim
        cases htrim
      constructor
      · intro h
        cases h
      · rintro ⟨_, hall, _⟩
        exact absurd (fun clip hc => (hall clip hc).1) hnot
  | none =>
      have htrims := firstFault_eq_none_iff.mp htrim
      dsimp only [estimate]
      cases hfault : fault? (overlapOf transition) (clips.map Clip.length) with
      | some fault =>
          constructor
          · intro h
            cases h
          · rintro ⟨hne, hall, _⟩
            have hnone : fault? (overlapOf transition) (clips.map Clip.length) = none := by
              refine fault?_eq_none_iff.mpr ⟨by simpa using hne, ?_⟩
              intro length hl
              obtain ⟨clip, hc, rfl⟩ := List.mem_map.mp hl
              exact (hall clip hc).2
            rw [hnone] at hfault
            cases hfault
      | none =>
          obtain ⟨hne, hlengths⟩ := fault?_eq_none_iff.mp hfault
          constructor
          · intro h
            cases h
            refine ⟨by simpa using hne, ?_, rfl⟩
            intro clip hc
            exact ⟨htrims clip hc, hlengths _ (List.mem_map_of_mem hc)⟩
          · rintro ⟨_, _, rfl⟩
            rfl

/-- A schedule is a matter of trims and lengths, whatever else is in the clips. -/
theorem estimateClips_congr {clips clips' : List (Clip α)}
    (htrims : clips'.map Clip.trimStart = clips.map Clip.trimStart)
    (hlengths : clips'.map Clip.length = clips.map Clip.length) :
    estimateClips transition clips' = estimateClips transition clips := by
  rw [estimateClips, estimateClips, ← firstFault_map Clip.trimStart,
    ← firstFault_map Clip.trimStart, htrims, hlengths]

end Acceptance

/-- There is one start per length. -/
theorem startsFrom_length {α : Type} [Scalar α] (overlap start : α) (lengths : List α) :
    (startsFrom overlap start lengths).length = lengths.length := by
  induction lengths generalizing start with
  | nil => rfl
  | cons length rest ih => simp [startsFrom, ih]

/-- The end of footage is where its last clip ends. -/
theorem endFrom_eq {α : Type} [Scalar α] {overlap start begun length : α} {lengths : List α}
    {k : ℕ} (hk : k + 1 = lengths.length)
    (hbegun : (startsFrom overlap start lengths)[k]? = some begun)
    (hlength : lengths[k]? = some length) :
    endFrom overlap start lengths = begun + length := by
  induction lengths generalizing start k with
  | nil => simp at hk
  | cons first rest ih =>
      cases rest with
      | nil =>
          obtain rfl : k = 0 := by simpa using hk
          obtain rfl : start = begun := by simpa [startsFrom] using hbegun
          obtain rfl : first = length := by simpa using hlength
          rfl
      | cons second rest =>
          obtain ⟨j, rfl⟩ : ∃ j, k = j + 1 := ⟨k - 1, by simp at hk; omega⟩
          exact ih (by simpa using hk) (by simpa [startsFrom] using hbegun)
            (by simpa using hlength)

/-- Appending lengths leaves the starts of the earlier ones as they are. -/
theorem startsFrom_isPrefix_append {α : Type} [Scalar α] (overlap start : α) (xs ys : List α) :
    startsFrom overlap start xs <+: startsFrom overlap start (xs ++ ys) := by
  induction xs generalizing start with
  | nil => exact List.nil_prefix
  | cons length rest ih => exact List.cons_prefix_cons.mpr ⟨rfl, ih _⟩

/-- Footage behind other footage begins one overlap before its end. -/
theorem endFrom_append {α : Type} [Scalar α] (overlap start : α) {xs ys : List α} (hxs : xs ≠ [])
    (hys : ys ≠ []) :
    endFrom overlap start (xs ++ ys) = endFrom overlap (endFrom overlap start xs - overlap) ys := by
  induction xs generalizing start with
  | nil => exact absurd rfl hxs
  | cons length rest ih =>
      cases rest with
      | nil =>
          cases ys with
          | nil => exact absurd rfl hys
          | cons next ys => rfl
      | cons second rest => exact ih (start + length - overlap) (List.cons_ne_nil second rest)

/-! ## Exact arithmetic -/

/-- The beginning of the clip at an index, counted from the first clip. -/
def offset (overlap : ℚ) (lengths : List ℚ) (k : ℕ) : ℚ :=
  (lengths.take k).sum - k * overlap

@[simp] theorem offset_zero (overlap : ℚ) (lengths : List ℚ) : offset overlap lengths 0 = 0 := by
  simp [offset]

/-- The offset of a later clip passes over the first length less one overlap. -/
theorem offset_cons_succ (overlap length : ℚ) (rest : List ℚ) (k : ℕ) :
    offset overlap (length :: rest) (k + 1) = length - overlap + offset overlap rest k := by
  simp only [offset, List.take_succ_cons, List.sum_cons, Nat.cast_add, Nat.cast_one]
  ring

/-- The end of the clip at an index, counted from the beginning of the first. -/
def stop (overlap : ℚ) (lengths : List ℚ) (k : ℕ) : ℚ :=
  offset overlap lengths k + lengths.getD k 0

/-- Each clip begins one overlap before the end of the one in front of it. -/
theorem offset_succ (overlap : ℚ) {lengths : List ℚ} {k : ℕ} (h : k < lengths.length) :
    offset overlap lengths (k + 1) = stop overlap lengths k - overlap := by
  rw [stop, List.getD_eq_getElem _ _ h]
  simp only [offset, List.sum_take_succ lengths k h, Nat.cast_add, Nat.cast_one]
  ring

/-- The next clip stops its own length, less one overlap, after the one before it. -/
theorem stop_succ (overlap : ℚ) {lengths : List ℚ} {k : ℕ} (h : k < lengths.length) :
    stop overlap lengths (k + 1)
      = stop overlap lengths k - overlap + lengths.getD (k + 1) 0 := by
  rw [← offset_succ overlap h]
  rfl

/-- In exact arithmetic the starts are the offsets, counted from the given start. -/
theorem startsFrom_finite (overlap start : ℚ) (lengths : List ℚ) :
    startsFrom (.finite overlap) (.finite start) (lengths.map Exact.finite)
      = (List.range lengths.length).map fun k => .finite (start + offset overlap lengths k) := by
  induction lengths generalizing start with
  | nil => rfl
  | cons length rest ih =>
      simp only [List.map_cons, startsFrom, Exact.finite_add_finite, Exact.finite_sub_finite, ih,
        List.length_cons, List.range_succ_eq_map, offset_zero, add_zero, List.map_map]
      refine congrArg _ (List.map_congr_left fun k _ => ?_)
      simp only [Function.comp_apply, Nat.succ_eq_add_one, offset_cons_succ]
      congr 1
      ring

/-- Every clip takes the video on by its length less one overlap. -/
theorem endFrom_finite (w c : ℚ) {lengths : List ℚ} (hne : lengths ≠ []) :
    endFrom (.finite w) (.finite c) (lengths.map Exact.finite)
      = .finite (c + w + (lengths.map (· - w)).sum) := by
  induction lengths generalizing c with
  | nil => exact absurd rfl hne
  | cons length rest ih =>
      cases rest with
      | nil =>
          change Exact.finite c + .finite length = _
          rw [Exact.finite_add_finite]
          simp
      | cons second rest =>
          have hstep := ih (c + length - w) (List.cons_ne_nil second rest)
          have hsum : ((length :: second :: rest).map (· - w)).sum
              = length - w + ((second :: rest).map (· - w)).sum := by
            rw [List.map_cons, List.sum_cons]
          rw [hsum]
          change endFrom (.finite w)
            (Exact.finite c + Exact.finite length - Exact.finite w) _ = _
          rw [Exact.finite_add_finite, Exact.finite_sub_finite, hstep]
          congr 1
          ring

end Schedule

end Montage
