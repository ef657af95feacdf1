import Montage.Proofs.Json.Storable

/-!
# Readers of single values

Numbers, optional values and lists: each reader gives back what has been written, and what
it gives can be written.
-/

namespace Montage

namespace Json

/-- A mismatch is never a success. -/
theorem ne_ok_mismatch {β : Type} {expected : String} {place : Place} {outline : Outline} {b : β} :
    mismatch expected place outline ≠ .ok b := by
  intro h
  obtain ⟨_, _, h⟩ := exists_of_bind_eq_ok h
  cases h

/-! ## Numbers -/

/-- A finite number is written as a numeral of the number. -/
theorem outlineOf_real {x : Float} (h : Scalar.isFinite x = true) :
    ∃ numeral, outlineOf (.real x) = .number numeral ∧ numeral.toFloat? = some x := by
  obtain ⟨p, hp⟩ := Binary64.exists_ofFloat? h
  exact ⟨realNumeral p, by rw [outlineOf, hp], toFloat?_realSpelling hp⟩

/-- A finite number is read from what it is written as. -/
theorem readReal_real {x : Float} (h : Scalar.isFinite x = true) (place : Place) :
    readReal place (outlineOf (.real x)) = .ok x := by
  obtain ⟨numeral, hnumeral, hvalue⟩ := outlineOf_real h
  rw [hnumeral, readReal, hvalue]

/-- A number that is read is finite. -/
theorem isFinite_of_readReal {place : Place} {outline : Outline} {x : Float}
    (h : readReal place outline = .ok x) : Scalar.isFinite x = true := by
  cases outline with
  | number numeral =>
      rw [readReal] at h
      cases hx : numeral.toFloat? with
      | none =>
          rw [hx] at h
          cases h
      | some y =>
          rw [hx] at h
          cases h
          exact isFinite_of_toFloat? hx
  | _ => exact absurd h ne_ok_mismatch

/-! ## Lists -/

/-- A list is read from what its items are written as, if every one of them is. -/
theorem readItems_of_forall {β : Type} {read : Reader β} {place : Place} {write : β → Json Float}
    {bs : List β} (h : ∀ b ∈ bs, read place (outlineOf (write b)) = .ok b) :
    readItems read place (itemOutlines (bs.map write)) = .ok bs := by
  induction bs with
  | nil => rfl
  | cons b bs ih =>
      rw [List.map_cons, itemOutlines, readItems, h b List.mem_cons_self,
        ih fun other hother => h other (List.mem_cons_of_mem b hother)]
      rfl

/-- A list is read back when each of its items is. -/
theorem readList_arr {β : Type} {read : Reader β} {place inner : Place} {write : β → Json Float}
    {bs : List β} (hinner : place.enter = .ok inner)
    (h : ∀ b ∈ bs, read inner (outlineOf (write b)) = .ok b) :
    readList read place (outlineOf (.arr (bs.map write))) = .ok bs := by
  rw [outlineOf, readList, hinner]
  simp only [bind, Except.bind, readItems_of_forall h]
  rfl

/-- Every item of a list that is read has been read from an outline. -/
theorem exists_of_readItems {β : Type} {read : Reader β} {place : Place} {items : List Outline}
    {bs : List β} (h : readItems read place items = .ok bs) :
    ∀ b ∈ bs, ∃ outline, read place outline = .ok b := by
  induction items generalizing bs with
  | nil =>
      cases h
      exact fun _ hb => nomatch hb
  | cons item items ih =>
      obtain ⟨first, hfirst, h⟩ := exists_of_bind_eq_ok h
      obtain ⟨rest, hrest, h⟩ := exists_of_bind_eq_ok h
      cases h
      intro b hb
      rcases List.mem_cons.mp hb with rfl | hb
      · exact ⟨item, hfirst⟩
      · exact ih hrest b hb

/-- Every item of a list has been read one container deeper. -/
theorem exists_of_readList {β : Type} {read : Reader β} {place : Place} {outline : Outline}
    {bs : List β} (h : readList read place outline = .ok bs) :
    ∀ b ∈ bs, ∃ inner item, place.levels = inner.levels + 1 ∧ read inner item = .ok b := by
  cases outline with
  | array items closed =>
      obtain ⟨inner, hinner, h⟩ := exists_of_bind_eq_ok h
      obtain ⟨values, hvalues, h⟩ := exists_of_bind_eq_ok h
      cases closed with
      | false => exact absurd h ne_ok_cutHere
      | true =>
          cases h
          intro b hb
          obtain ⟨item, hitem⟩ := exists_of_readItems hvalues b hb
          exact ⟨inner, item, (Place.enter_eq_ok_iff.mp hinner).1, hitem⟩
  | _ => exact absurd h ne_ok_mismatch

/-! ## Optional values -/

/-- An optional value that is there is read as any other. -/
theorem readOptional_eq {β : Type} (read : Reader β) (place : Place) {outline : Outline}
    (hne : outline ≠ .null) :
    readOptional read place outline = read place outline >>= fun b => pure (some b) := by
  unfold readOptional
  split
  · exact absurd rfl hne
  · rfl

/-- A value that is there is read as it would be if it had to be there. -/
theorem readOptional_of_ne_null {β : Type} {read : Reader β} {place : Place} {outline : Outline}
    {b : β} (hne : outline ≠ .null) (h : read place outline = .ok b) :
    readOptional read place outline = .ok (some b) := by
  rw [readOptional_eq read place hne, h]
  rfl

/-- A value that is read where it could be missing has not been `null`. -/
theorem exists_of_readOptional {β : Type} {read : Reader β} {place : Place} {outline : Outline}
    {b : β} (h : readOptional read place outline = .ok (some b)) :
    outline ≠ .null ∧ read place outline = .ok b := by
  unfold readOptional at h
  split at h
  · cases h
  · rename_i hne
    obtain ⟨value, hvalue, h⟩ := exists_of_bind_eq_ok h
    cases h
    exact ⟨hne, hvalue⟩

/-- Only `null` is read as `null`. -/
theorem ne_null_of_readAny {place : Place} {outline : Outline} {value : Json Float}
    (h : readAny place outline = .ok value) (hne : outline ≠ .null) : value ≠ .null := by
  rintro rfl
  cases outline with
  | null => exact hne rfl
  | cut => cases h
  | boolean value => cases h
  | number numeral =>
      rw [readAny] at h
      split at h <;> cases h
  | string text => cases text <;> cases h
  | array items closed =>
      obtain ⟨inner, -, h⟩ := exists_of_bind_eq_ok h
      obtain ⟨values, -, h⟩ := exists_of_bind_eq_ok h
      cases closed <;> cases h
  | object members closed =>
      obtain ⟨inner, -, h⟩ := exists_of_bind_eq_ok h
      obtain ⟨values, -, h⟩ := exists_of_bind_eq_ok h
      cases closed <;> cases h

/-- Only `null` is written as `null`, among what can be stored. -/
theorem outlineOf_ne_null {levels : ℕ} {value : Json Float} (h : Storable levels value)
    (hne : value ≠ .null) : outlineOf value ≠ .null := by
  cases h with
  | null => exact absurd rfl hne
  | real finite =>
      obtain ⟨numeral, hnumeral, -⟩ := outlineOf_real finite
      rw [hnumeral]
      exact Outline.noConfusion
  | _ => simp [outlineOf]

end Json

end Montage
