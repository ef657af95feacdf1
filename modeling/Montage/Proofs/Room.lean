import Montage.Proofs.Layout
import Montage.Proofs.Numbers.Rounded

/-!
# Room for overlaps

A clip that passes the check of its mode is longer than two overlaps of the mode.  In exact
arithmetic it leaves a second clear of both; however numbers are rounded, enough of that
second is left (`Schedule.LeavesRoom.holds`).  What the overlap has to be like for this is
`Schedule.LeavesRoom`.  It holds of the overlap of every mode, on doubles and in exact
arithmetic.
-/

namespace Montage

open RoundedScalar

namespace Schedule

variable {α : Type} [Scalar α]

/-- The shortest clip is longer than two overlaps, by more than what is forgiven below the
minimum. -/
structure LeavesRoom (overlap : α) : Prop where
  isFinite : Scalar.isFinite overlap = true
  pos : 0 < overlap
  minimum : Scalar.isFinite (minLength overlap) = true
  forgiven : Scalar.isFinite (1e-9 : α) = true
  clear : ¬ minLength overlap ≤ overlap + overlap + 1e-9

variable [RoundedScalar α] {overlap length : α} {w : ℚ}

/-- A length that has room for two overlaps of `w` seconds. -/
def Holds (w : ℚ) (length : α) : Prop := ∃ q : ℚ, 2 * w ≤ q ∧ toExact length = .finite q

/-- However lengths are rounded, what passes the check has room for two overlaps. -/
theorem LeavesRoom.holds (hroom : LeavesRoom overlap) (hw : toExact overlap = .finite w)
    (haccepted : lengthFault? overlap length = none) : Holds w length := by
  obtain ⟨hlength, _, hlong⟩ := lengthFault?_eq_none_iff.mp haccepted
  have hminimum := hroom.minimum
  have hforgiven := hroom.forgiven
  rw [isFinite_toExact, Exact.isFinite_iff] at hlength hminimum hforgiven
  obtain ⟨q, hq⟩ := hlength
  obtain ⟨m, hm⟩ := hminimum
  obtain ⟨r, hr⟩ := hforgiven
  refine ⟨q, ?_, hq⟩
  by_contra hshort
  -- A length without room would pass the check together with two overlaps.
  have htwice : toExact length ≤ toExact (overlap + overlap) := by
    apply le_toExact_add
    rw [hq, hw, Exact.finite_add_finite, Exact.finite_le_finite]
    linarith
  have hpasses : toExact (length + 1e-9) ≤ toExact (overlap + overlap + 1e-9) := by
    rw [toExact_add length, toExact_add (overlap + overlap), hr]
    exact closest_mono (Exact.add_le_add_right htwice r)
  have hreached : toExact (minLength overlap) ≤ toExact (length + 1e-9) := by
    rw [lt_iff] at hlong
    exact Exact.le_of_not_lt (Exact.ne_nan_of_le hpasses).1 (by rw [hm]; simp) hlong
  exact hroom.clear (le_iff.mpr (Exact.le_trans hreached hpasses))

end Schedule

namespace Layout

/-- Every mode leaves room in doubles. -/
theorem leavesRoom_double (modeKey : String) :
    Schedule.LeavesRoom (overlapUnder Float modeKey) := by
  unfold overlapUnder
  cases Mode.resolve modeKey <;> constructor <;> decide +kernel

/-- Every mode leaves room in exact arithmetic. -/
theorem leavesRoom_exact (modeKey : String) :
    Schedule.LeavesRoom (overlapUnder Exact modeKey) := by
  unfold overlapUnder
  cases Mode.resolve modeKey <;> constructor <;> decide +kernel

variable {α : Type} [Scalar α] [RoundedScalar α] {modeKey : String}

/-- Every clip that a mode accepts has room for two of its overlaps. -/
structure Roomy (α : Type) [Scalar α] [RoundedScalar α] (modeKey : String) (w : ℚ) : Prop where
  pos : 0 < w
  toExact_eq : toExact (overlapUnder α modeKey) = .finite w
  holds : ∀ length, Schedule.lengthFault? (overlapUnder α modeKey) length = none →
    Schedule.Holds w length

/-- An overlap that leaves room is some positive rational, for which all that is accepted has
room. -/
theorem exists_roomy (hroom : Schedule.LeavesRoom (overlapUnder α modeKey)) :
    ∃ w, Roomy α modeKey w := by
  have hfinite := hroom.isFinite
  rw [isFinite_toExact, Exact.isFinite_iff] at hfinite
  obtain ⟨w, hw⟩ := hfinite
  have hpos := hroom.pos
  rw [lt_iff, toExact_zero, hw, Exact.finite_lt_finite] at hpos
  exact ⟨w, hpos, hw, fun _ haccepted => hroom.holds hw haccepted⟩

/-- Accepted clips have lengths in which the overlap has room. -/
theorem Roomy.holds_of_accepted {w : ℚ} (hroomy : Roomy α modeKey w) {clips : List (Clip α)}
    (hclips : ∀ clip ∈ clips, Schedule.Accepted (overlapUnder α modeKey) clip) :
    ∀ length ∈ clips.map Clip.length, Schedule.Holds w length := by
  intro length hlength
  obtain ⟨clip, hclip, rfl⟩ := List.mem_map.mp hlength
  exact hroomy.holds clip.length (hclips clip hclip).2

end Layout

end Montage
