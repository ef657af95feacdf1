import Mathlib.Data.String.Basic
import Montage.Proofs.Failing
import Montage.Proofs.Json.Outlines

/-!
# Values that a text can hold

What `readAny` gives is `Storable`: its whole numbers have at most 64 bits, its real
numbers are finite, the keys of its objects ascend, and it is nested no deeper than the
place allows (`storable_of_readAny`).  Storable values are read back from their own text
(`readAny_outlineOf`).
-/

namespace Montage

namespace Json

/-- A value that a text can hold, with containers nested at most `levels` deep. -/
inductive Storable : ℕ → Json Float → Prop
  | null {levels : ℕ} : Storable levels .null
  | bool {levels : ℕ} {value : Bool} : Storable levels (.bool value)
  | int {levels : ℕ} {i : ℤ} (low : -2 ^ 63 ≤ i) (high : i < 2 ^ 64) : Storable levels (.int i)
  | real {levels : ℕ} {x : Float} (finite : Scalar.isFinite x = true) : Storable levels (.real x)
  | str {levels : ℕ} {s : String} : Storable levels (.str s)
  | arr {levels : ℕ} {items : List (Json Float)} (each : ∀ item ∈ items, Storable levels item) :
      Storable (levels + 1) (.arr items)
  | obj {levels : ℕ} {members : List (String × Json Float)}
      (sorted : members.Pairwise (·.1 < ·.1))
      (each : ∀ member ∈ members, Storable levels member.2) :
      Storable (levels + 1) (.obj members)

/-- Entering a list or an object takes one level of those that are left. -/
theorem Place.enter_eq_ok_iff {place inner : Place} :
    place.enter = .ok inner ↔ place.levels = inner.levels + 1 ∧ place.stop = inner.stop := by
  obtain ⟨levels, stop⟩ := place
  obtain ⟨innerLevels, innerStop⟩ := inner
  cases levels with
  | zero =>
      simp [enter, malformed]
  | succ levels =>
      simp [enter]

/-- It can be entered while there is a level left. -/
theorem Place.exists_enter {place : Place} (h : 0 < place.levels) :
    ∃ inner, place.enter = .ok inner := by
  obtain ⟨levels, hlevels⟩ : ∃ levels, place.levels = levels + 1 := ⟨place.levels - 1, by omega⟩
  exact ⟨⟨levels, place.stop⟩, Place.enter_eq_ok_iff.mpr ⟨hlevels, rfl⟩⟩

/-! ## Reading what has been written -/

/-- A list of values is read from what it is written as, if every item is. -/
theorem readAnyItems_of_forall {place : Place} {items : List (Json Float)}
    (h : ∀ item ∈ items, readAny place (outlineOf item) = .ok item) :
    readAnyItems place (itemOutlines items) = .ok items := by
  induction items with
  | nil => rfl
  | cons item items ih =>
      rw [itemOutlines, readAnyItems, h item List.mem_cons_self,
        ih fun other hother => h other (List.mem_cons_of_mem item hother)]
      rfl

/-- A member with the greatest key comes last. -/
theorem insertSorted_last {key : String} {value : Json Float}
    {before : List (String × Json Float)} (h : ∀ member ∈ before, member.1 < key) :
    insertSorted key value before = before ++ [(key, value)] := by
  induction before with
  | nil => rfl
  | cons member before ih =>
      have hless := h member List.mem_cons_self
      rw [insertSorted, if_neg hless.asymm, if_neg hless.ne',
        ih fun other hother => h other (List.mem_cons_of_mem member hother)]
      rfl

/-- Members with rising keys are read from what they are written as, and stay in order behind
those before them. -/
theorem readAnyMembers_of_forall {place : Place} {members : List (String × Json Float)}
    (h : ∀ member ∈ members, readAny place (outlineOf member.2) = .ok member.2)
    (before : List (String × Json Float)) (hsorted : (before ++ members).Pairwise (·.1 < ·.1)) :
    readAnyMembers place before (memberOutlines members) = .ok (before ++ members) := by
  induction members generalizing before with
  | nil => rw [memberOutlines, readAnyMembers, List.append_nil]
  | cons member members ih =>
      obtain ⟨key, value⟩ := member
      have hlast : ∀ earlier ∈ before, earlier.1 < key := fun earlier hearlier =>
        (List.pairwise_append.mp hsorted).2.2 earlier hearlier (key, value) List.mem_cons_self
      have hvalue : readAny place (outlineOf value) = .ok value :=
        h (key, value) List.mem_cons_self
      rw [List.append_cons] at hsorted
      rw [memberOutlines, readAnyMembers, hvalue]
      simp only [bind, Except.bind]
      rw [insertSorted_last hlast, ih (fun other hother =>
        h other (List.mem_cons_of_mem _ hother)) _ hsorted, List.append_assoc]
      rfl

/-- A storable value is read back from its outline. -/
theorem readAny_outlineOf {levels : ℕ} {value : Json Float} (h : Storable levels value) :
    ∀ place : Place, place.levels = levels → readAny place (outlineOf value) = .ok value := by
  induction h with
  | null => exact fun _ _ => rfl
  | bool => exact fun _ _ => rfl
  | int low high =>
      intro place _
      rw [outlineOf, readAny, value_intNumeral low high]
  | real finite =>
      intro place _
      obtain ⟨p, hp⟩ := Binary64.exists_ofFloat? finite
      simp only [outlineOf, hp, readAny, value_realNumeral hp]
  | str => exact fun _ _ => rfl
  | @arr levels items _ ih =>
      intro place hlevels
      have hinner : place.enter = .ok ⟨levels, place.stop⟩ :=
        Place.enter_eq_ok_iff.mpr ⟨hlevels, rfl⟩
      have hitems := readAnyItems_of_forall fun item hitem =>
        ih item hitem ⟨levels, place.stop⟩ rfl
      rw [outlineOf, readAny, hinner]
      simp only [bind, Except.bind, hitems]
      rfl
  | @obj levels members sorted _ ih =>
      intro place hlevels
      have hinner : place.enter = .ok ⟨levels, place.stop⟩ :=
        Place.enter_eq_ok_iff.mpr ⟨hlevels, rfl⟩
      have hmembers := readAnyMembers_of_forall (fun member hmember =>
        ih member hmember ⟨levels, place.stop⟩ rfl) [] sorted
      rw [outlineOf, readAny, hinner]
      simp only [bind, Except.bind, hmembers]
      rfl

/-! ## What is read -/

theorem ne_ok_cutHere {β : Type} {place : Place} {b : β} : place.cutHere ≠ .ok b := by
  intro h
  cases h

/-- A numeral that is read as a double is read as a finite one. -/
theorem isFinite_of_toFloat? {numeral : Numeral} {x : Float} (h : numeral.toFloat? = some x) :
    Scalar.isFinite x = true := by
  obtain ⟨y, hy, rfl⟩ := Option.map_eq_some_iff.mp h
  have hfinite : Scalar.isFinite y = true := by
    simp only [Decimal.toFloat?] at hy
    split at hy
    · cases hy
      decide +kernel
    · split at hy
      · cases hy
      · split at hy
        · rename_i hx
          cases hy
          exact hx
        · cases hy
  split
  · rw [Double.isFinite_exact] at hfinite ⊢
    obtain ⟨q, hq⟩ := Exact.isFinite_iff.mp hfinite
    rw [Double.exact_neg, hq]
    rfl
  · exact hfinite

/-- The value of a numeral can be stored: it is a whole number within bounds or finite. -/
theorem storable_of_value (numeral : Numeral) (levels : ℕ) :
    (∀ i, numeral.value = .integer i → Storable levels (.int i)) ∧
      ∀ x, numeral.value = .real x → Storable levels (.real x) := by
  have hsize : UInt64.size = 2 ^ 64 := rfl
  unfold Numeral.value
  split
  · rename_i h
    simp only [Bool.and_eq_true, decide_eq_true_eq] at h
    refine ⟨fun i hi => ?_, fun _ hx => nomatch hx⟩
    cases hi
    exact .int (by omega) (by omega)
  · split
    · rename_i h
      simp only [Bool.and_eq_true, decide_eq_true_eq] at h
      refine ⟨fun i hi => ?_, fun _ hx => nomatch hx⟩
      cases hi
      exact .int (by omega) (by omega)
    · split
      · rename_i y hy
        refine ⟨(fun _ hi => nomatch hi), fun x hx => ?_⟩
        cases hx
        exact .real (isFinite_of_toFloat? hy)
      · exact ⟨(fun _ hi => nomatch hi), (fun _ hx => nomatch hx)⟩

/-- A member behind an insertion is the new one or was there before. -/
theorem mem_insertSorted {key : String} {value : Json Float}
    {members : List (String × Json Float)} {member : String × Json Float}
    (h : member ∈ insertSorted key value members) : member = (key, value) ∨ member ∈ members := by
  induction members with
  | nil => exact Or.inl (List.mem_singleton.mp h)
  | cons first rest ih =>
      rw [insertSorted] at h
      split at h
      · exact List.mem_cons.mp h
      · split at h
        · exact (List.mem_cons.mp h).imp_right (List.mem_cons_of_mem first)
        · rcases List.mem_cons.mp h with rfl | h
          · exact Or.inr List.mem_cons_self
          · exact (ih h).imp_right (List.mem_cons_of_mem first)

/-- Keys that rise still do when one more member finds its place. -/
theorem pairwise_insertSorted (key : String) (value : Json Float)
    {members : List (String × Json Float)} (h : members.Pairwise (·.1 < ·.1)) :
    (insertSorted key value members).Pairwise (·.1 < ·.1) := by
  induction members with
  | nil => exact List.pairwise_singleton _ _
  | cons first rest ih =>
      obtain ⟨hfirst, hrest⟩ := List.pairwise_cons.mp h
      rw [insertSorted]
      split
      · rename_i hless
        refine List.pairwise_cons.mpr ⟨fun other hother => ?_, h⟩
        rcases List.mem_cons.mp hother with rfl | hother
        · exact hless
        · exact hless.trans (hfirst other hother)
      · split
        · rename_i heq
          refine List.pairwise_cons.mpr ⟨fun other hother => ?_, hrest⟩
          rw [heq]
          exact hfirst other hother
        · rename_i hnot hne
          refine List.pairwise_cons.mpr ⟨fun other hother => ?_, ih hrest⟩
          rcases mem_insertSorted hother with rfl | hother
          · exact lt_of_le_of_ne (not_lt.mp hnot) (Ne.symm hne)
          · exact hfirst other hother

mutual

/-- What is read of an outline is storable. -/
theorem storable_of_readAny (place : Place) : ∀ (outline : Outline) {value : Json Float},
    readAny place outline = .ok value → Storable place.levels value
  | .cut, _, h => absurd h ne_ok_cutHere
  | .null, _, h => by
      cases h
      exact .null
  | .boolean _, _, h => by
      cases h
      exact .bool
  | .number numeral, _, h => by
      obtain ⟨hint, hreal⟩ := storable_of_value numeral place.levels
      rw [readAny] at h
      split at h
      · rename_i i hi
        cases h
        exact hint i hi
      · rename_i x hx
        cases h
        exact hreal x hx
      · cases h
  | .string (some _), _, h => by
      cases h
      exact .str
  | .string none, _, h => by cases h
  | .array items closed, _, h => by
      obtain ⟨inner, hinner, h⟩ := exists_of_bind_eq_ok h
      obtain ⟨values, hvalues, h⟩ := exists_of_bind_eq_ok h
      cases closed with
      | false => exact absurd h ne_ok_cutHere
      | true =>
          cases h
          rw [(Place.enter_eq_ok_iff.mp hinner).1]
          exact .arr (storable_of_readAnyItems inner items hvalues)
  | .object members closed, _, h => by
      obtain ⟨inner, hinner, h⟩ := exists_of_bind_eq_ok h
      obtain ⟨values, hvalues, h⟩ := exists_of_bind_eq_ok h
      cases closed with
      | false => exact absurd h ne_ok_cutHere
      | true =>
          cases h
          rw [(Place.enter_eq_ok_iff.mp hinner).1]
          obtain ⟨hsorted, heach⟩ := storable_of_readAnyMembers inner members hvalues
            List.Pairwise.nil (fun _ hmember => nomatch hmember)
          exact .obj hsorted heach

/-- Values that are read from the items of a list can be stored. -/
theorem storable_of_readAnyItems (place : Place) : ∀ (items : List Outline)
    {values : List (Json Float)}, readAnyItems place items = .ok values →
      ∀ value ∈ values, Storable place.levels value
  | [], _, h => by
      cases h
      exact fun _ hvalue => nomatch hvalue
  | item :: items, _, h => by
      obtain ⟨first, hfirst, h⟩ := exists_of_bind_eq_ok h
      obtain ⟨rest, hrest, h⟩ := exists_of_bind_eq_ok h
      cases h
      intro value hvalue
      rcases List.mem_cons.mp hvalue with rfl | hvalue
      · exact storable_of_readAny place item hfirst
      · exact storable_of_readAnyItems place items hrest value hvalue

/-- Values that are read from the members of an object can be stored, and their keys rise. -/
theorem storable_of_readAnyMembers (place : Place) : ∀ (members : List Member)
    {before values : List (String × Json Float)},
    readAnyMembers place before members = .ok values → before.Pairwise (·.1 < ·.1) →
      (∀ member ∈ before, Storable place.levels member.2) →
      values.Pairwise (·.1 < ·.1) ∧ ∀ member ∈ values, Storable place.levels member.2
  | [], _, _, h, hsorted, heach => by
      cases h
      exact ⟨hsorted, heach⟩
  | (none, _) :: _, _, _, h, _, _ => by cases h
  | (some key, outline) :: members, _, _, h, hsorted, heach => by
      obtain ⟨value, hvalue, h⟩ := exists_of_bind_eq_ok h
      refine storable_of_readAnyMembers place members h (pairwise_insertSorted key value hsorted)
        fun member hmember => ?_
      rcases mem_insertSorted hmember with rfl | hmember
      · exact storable_of_readAny place outline hvalue
      · exact heach member hmember

end

end Json

end Montage
