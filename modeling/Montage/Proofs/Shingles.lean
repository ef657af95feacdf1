import Mathlib.Data.Nat.Find
import Mathlib.Order.Lattice
import Mathlib.Order.Monotone.Defs

/-!
# Spans laid like shingles

Adjacent clips overlap and no others do.  `Shingled` says so of the spans of a
list, in any order of times: each span begins no earlier than the one in front
of it, it begins before that one has ended, and the one behind next begins only
after that.

Two facts follow from these three rules about neighbours.  Spans that are not
adjacent never overlap (`Shingled.stop_le_first`), and nothing between the first
beginning and the last end is left out: `Shingled.covers` finds one span, or two
adjacent ones, for every instant in between.
-/

namespace Montage

/-- One place of a list has a property and no other has, or two adjacent places
have it and no other. -/
def AloneOrPaired (P : ℕ → Prop) : Prop :=
  ∃ k, (∀ j, P j ↔ j = k) ∨ ∀ j, P j ↔ j = k ∨ j = k + 1

variable {ι T : Type} {first stop : ι → T} {spans : List ι}

/-- Spans of which adjacent ones touch or overlap, and others do not overlap. -/
structure Shingled [LE T] (first stop : ι → T) (spans : List ι) : Prop where
  ascending : ∀ {k : ℕ} {a b : ι}, spans[k]? = some a → spans[k + 1]? = some b →
    first a ≤ first b
  touching : ∀ {k : ℕ} {a b : ι}, spans[k]? = some a → spans[k + 1]? = some b →
    first b ≤ stop a
  apart : ∀ {k : ℕ} {a c : ι}, spans[k]? = some a → spans[k + 2]? = some c →
    stop a ≤ first c

/-- Whether the span at a place contains an instant; its end does not belong to
it. -/
def ShownAt [LE T] [LT T] (first stop : ι → T) (spans : List ι) (t : T) (k : ℕ) : Prop :=
  ∃ a, spans[k]? = some a ∧ first a ≤ t ∧ t < stop a

namespace Shingled

/-- A list with a span at a place has one at every place in front of it. -/
theorem exists_of_le {spans : List ι} {j k : ℕ} {b : ι} (hjk : j ≤ k)
    (hb : spans[k]? = some b) : ∃ a, spans[j]? = some a := by
  have hk : k < spans.length := (List.getElem?_eq_some_iff.mp hb).1
  exact ⟨_, List.getElem?_eq_getElem (hjk.trans_lt hk)⟩

section Order

variable [Preorder T]

/-- Along shingles the first points ascend. -/
theorem first_le_first (h : Shingled first stop spans) {j k : ℕ} {a b : ι} (hjk : j ≤ k)
    (ha : spans[j]? = some a) (hb : spans[k]? = some b) : first a ≤ first b := by
  induction k, hjk using Nat.le_induction generalizing b with
  | base =>
      rw [ha] at hb
      cases hb
      exact le_rfl
  | succ k hjk ih =>
      obtain ⟨c, hc⟩ := exists_of_le (Nat.le_succ k) hb
      exact (ih hc).trans (h.ascending hc hb)

/-- A span has ended when one begins that is not its neighbour. -/
theorem stop_le_first (h : Shingled first stop spans) {j k : ℕ} {a b : ι} (hjk : j + 2 ≤ k)
    (ha : spans[j]? = some a) (hb : spans[k]? = some b) : stop a ≤ first b := by
  obtain ⟨c, hc⟩ := exists_of_le hjk hb
  exact (h.apart ha hc).trans (h.first_le_first hjk hc hb)

/-- Behind the end of the span in front of it, and before the beginning of the
one behind it, a span is shown alone. -/
theorem alone (h : Shingled first stop spans) {k : ℕ} {a : ι} {t : T}
    (ha : spans[k]? = some a) (hfrom : first a ≤ t) (hto : t < stop a)
    (hprevious : ∀ {j b}, j + 1 = k → spans[j]? = some b → stop b ≤ t)
    (hnext : ∀ {b}, spans[k + 1]? = some b → t < first b) (j : ℕ) :
    ShownAt first stop spans t j ↔ j = k := by
  constructor
  · rintro ⟨b, hb, hbt, htb⟩
    have hcases : j = k ∨ j + 1 = k ∨ j + 2 ≤ k ∨ j = k + 1 ∨ k + 2 ≤ j := by omega
    rcases hcases with hj | hj | hj | rfl | hj
    · exact hj
    · exact absurd ((hprevious hj hb).trans_lt htb) (lt_irrefl _)
    · have hle : stop b ≤ first a := h.stop_le_first hj hb ha
      exact absurd ((hle.trans hfrom).trans_lt htb) (lt_irrefl _)
    · exact absurd (hbt.trans_lt (hnext hb)) (lt_irrefl _)
    · have hle : stop a ≤ first b := h.stop_le_first hj ha hb
      exact absurd ((hle.trans hbt).trans_lt hto) (lt_irrefl _)
  · rintro rfl
    exact ⟨a, ha, hfrom, hto⟩

end Order

variable [LinearOrder T]

/-- Every instant from the first beginning to the last end is shown by one span
or by two adjacent ones, and by no other. -/
theorem covers (h : Shingled first stop spans) {head last : ι} {t : T}
    (hhead : spans.head? = some head) (hlast : spans.getLast? = some last)
    (hfrom : first head ≤ t) (hto : t < stop last) :
    AloneOrPaired (ShownAt first stop spans t) := by
  rw [List.head?_eq_getElem?] at hhead
  rw [List.getLast?_eq_getElem?] at hlast
  classical
  -- The first span that has not ended has begun: the one in front of it has ended.
  have hpending : ∃ k a, spans[k]? = some a ∧ t < stop a := ⟨_, last, hlast, hto⟩
  let k := Nat.find hpending
  obtain ⟨a, ha, hend⟩ : ∃ a, spans[k]? = some a ∧ t < stop a := Nat.find_spec hpending
  have hended : ∀ {j : ℕ} {b : ι}, j < k → spans[j]? = some b → stop b ≤ t := by
    intro j b hj hb
    by_contra hlt
    exact Nat.find_min hpending hj ⟨b, hb, not_le.mp hlt⟩
  have hbegun : first a ≤ t := by
    rcases Nat.eq_zero_or_pos k with hk | hk
    · rw [hk, hhead] at ha
      cases ha
      exact hfrom
    · obtain ⟨b, hb⟩ := exists_of_le (Nat.sub_le k 1) ha
      have hk' : spans[k - 1 + 1]? = some a := by
        rwa [Nat.sub_add_cancel hk]
      exact (h.touching hb hk').trans (hended (by omega) hb)
  have hshown : ShownAt first stop spans t k := ⟨a, ha, hbegun, hend⟩
  have hnear : ∀ j, ShownAt first stop spans t j → j = k ∨ j = k + 1 := by
    rintro j ⟨b, hb, hbt, htb⟩
    by_contra hfar
    rcases lt_or_gt_of_ne (fun hjk => hfar (Or.inl hjk)) with hj | hj
    · exact absurd (hended hj hb) (not_le.mpr htb)
    · have hle : stop a ≤ first b := h.stop_le_first (by omega) ha hb
      exact absurd (hle.trans hbt) (not_le.mpr hend)
  refine ⟨k, ?_⟩
  by_cases hnext : ShownAt first stop spans t (k + 1)
  · refine Or.inr fun j => ⟨hnear j, ?_⟩
    rintro (rfl | rfl)
    · exact hshown
    · exact hnext
  · refine Or.inl fun j => ⟨?_, ?_⟩
    · intro hj
      rcases hnear j hj with hj' | rfl
      · exact hj'
      · exact absurd hj hnext
    · rintro rfl
      exact hshown

end Shingled

end Montage
