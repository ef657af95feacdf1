import Montage.Proofs.Json.Readers

/-!
# Structures that are written and read

A structure is written as the object of those of its fields that have a value
(`Schema.written`).  Reading it back fills the fields one after the other: `Fills` says
what that gives, and `Schema.read_written` that the reader does just that, whatever the
structure is.

Conversely, what holds of the blank structure and is kept by the reading of every field
holds of all that is read, from an object or from an array (`Schema.holds_of_read`).
-/

namespace Montage

namespace Json

variable {σ : Type}

/-! ## Reading what has been written -/

/-- Reading fields one after the other, each from its own value or not at all, turns one
structure into another. -/
inductive Fills (place : Place) : List (Field σ × Option (Json Float)) → σ → σ → Prop
  | done {whole : σ} : Fills place [] whole whole
  | absent {field : Field σ} {rows : List (Field σ × Option (Json Float))} {whole final : σ}
      (optional : field.required = false) (rest : Fills place rows whole final) :
      Fills place ((field, none) :: rows) whole final
  | present {field : Field σ} {value : Json Float} {rows : List (Field σ × Option (Json Float))}
      {whole next final : σ} (read : field.read place (outlineOf value) whole = .ok next)
      (rest : Fills place rows next final) : Fills place ((field, some value) :: rows) whole final

/-- A field that has a value. -/
theorem Fills.of {β : Type} {place : Place} {name : String} {required : Bool} {read : Reader β}
    {store : β → σ → σ} {rows : List (Field σ × Option (Json Float))} {whole final : σ}
    {value : Json Float} {b : β} (hread : read place (outlineOf value) = .ok b)
    (rest : Fills place rows (store b whole) final) :
    Fills place ((.of name required read store, some value) :: rows) whole final := by
  refine .present ?_ rest
  simp only [Field.of, hread]
  rfl

/-- A field that may lack a value, and lacks it in the structure so far. -/
theorem Fills.optional {β : Type} {place : Place} {name : String} {read : Reader β}
    {store : Option β → σ → σ} {rows : List (Field σ × Option (Json Float))} {whole final : σ}
    {write : β → Json Float} {o : Option β}
    (hread : ∀ b, o = some b →
      outlineOf (write b) ≠ .null ∧ read place (outlineOf (write b)) = .ok b)
    (hnone : store none whole = whole) (rest : Fills place rows (store o whole) final) :
    Fills place ((.of name false (readOptional read) store, o.map write) :: rows) whole final := by
  cases o with
  | none =>
      rw [hnone] at rest
      exact .absent rfl rest
  | some b => exact .of (readOptional_of_ne_null (hread b rfl).1 (hread b rfl).2) rest

/-- The object of the fields that have a value. -/
def Schema.written (schema : Schema σ) (values : List (Option (Json Float))) : Json Float :=
  present ((schema.fields.zip values).map fun (field, value) => (field.name, value))

/-- The members of fields, as the outline shows them. -/
def rowMembers (rows : List (Field σ × Option (Json Float))) : List Member :=
  rows.filterMap fun (field, value) => value.map fun v => (some field.name, outlineOf v)

/-- A structure is written as an object with a member for every row that has a value. -/
theorem outlineOf_present (rows : List (Field σ × Option (Json Float))) :
    outlineOf (present (rows.map fun (field, value) => (field.name, value)))
      = .object (rowMembers rows) true := by
  rw [present, outlineOf, memberOutlines_eq_map, List.filterMap_map, List.map_filterMap]
  congr 1
  refine List.filterMap_congr fun (field, value) _ => ?_
  cases value <;> rfl

/-- A field is found by its name if no other has it. -/
theorem find?_name {fields : List (Field σ)} (hnames : (fields.map Field.name).Nodup)
    {field : Field σ} (h : field ∈ fields) :
    fields.find? (·.name == field.name) = some field := by
  induction fields with
  | nil => cases h
  | cons first rest ih =>
      rw [List.map_cons, List.nodup_cons] at hnames
      rcases List.mem_cons.mp h with rfl | h
      · exact List.find?_cons_of_pos (beq_self_eq_true field.name)
      · have hne : first.name ≠ field.name := fun heq => hnames.1 (heq ▸ List.mem_map_of_mem h)
        simp only [List.find?_cons, beq_eq_false_iff_ne.mpr hne]
        exact ih hnames.2 h

namespace Schema

variable (schema : Schema σ)

/-- The members of fields that have not been read yet. -/
theorem readMembers_rowMembers {place : Place} {rows : List (Field σ × Option (Json Float))}
    {whole final : σ} (h : Fills place rows whole final)
    (hfields : ∀ row ∈ rows, schema.field? row.1.name = some row.1) :
    ∀ seen : List String, (rows.map (·.1.name)).Nodup → (∀ row ∈ rows, row.1.name ∉ seen) →
      ∃ after, schema.readMembers place seen whole (rowMembers rows) = .ok (after, final) ∧
        seen ⊆ after ∧ ∀ row ∈ rows, row.1.required = true → row.1.name ∈ after := by
  induction h with
  | done =>
      intro seen _ _
      exact ⟨seen, rfl, List.Subset.refl _, fun _ hrow => nomatch hrow⟩
  | @absent field rows whole final optional _ ih =>
      -- nothing is written for an absent row, so it must not be required
      intro seen hnames hseen
      rw [List.map_cons, List.nodup_cons] at hnames
      obtain ⟨after, hread, hsubset, hrequired⟩ :=
        ih (fun row hrow => hfields row (List.mem_cons_of_mem _ hrow)) seen hnames.2
          fun row hrow => hseen row (List.mem_cons_of_mem _ hrow)
      refine ⟨after, hread, hsubset, fun row hrow hreq => ?_⟩
      rcases List.mem_cons.mp hrow with rfl | hrow
      · rw [optional] at hreq
        cases hreq
      · exact hrequired row hrow hreq
  | @present field value rows whole next final hfield _ ih =>
      intro seen hnames hseen
      rw [List.map_cons, List.nodup_cons] at hnames
      -- names are unique, so the reader has not seen this one
      have hfresh : field.name ∉ seen := hseen (field, some value) List.mem_cons_self
      have hfound : schema.field? field.name = some field :=
        hfields (field, some value) List.mem_cons_self
      obtain ⟨after, hread, hsubset, hrequired⟩ :=
        ih (fun row hrow => hfields row (List.mem_cons_of_mem _ hrow)) (field.name :: seen)
          hnames.2 fun row hrow hmem => by
            rcases List.mem_cons.mp hmem with heq | hmem
            · exact hnames.1 (heq ▸ List.mem_map_of_mem hrow)
            · exact hseen row (List.mem_cons_of_mem _ hrow) hmem
      refine ⟨after, ?_, fun name hname => hsubset (List.mem_cons_of_mem _ hname),
        fun row hrow hreq => ?_⟩
      · change schema.readMembers place seen whole
          ((some field.name, outlineOf value) :: rowMembers rows) = _
        have hcontains : ¬ seen.contains field.name = true := by
          rw [List.contains_iff_mem]
          exact hfresh
        rw [readMembers, hfound]
        simp only [if_neg hcontains, hfield]
        exact hread
      · rcases List.mem_cons.mp hrow with rfl | hrow
        · exact hsubset List.mem_cons_self
        · exact hrequired row hrow hreq

/-- A structure is read back from what is written of it. -/
theorem read_written (values : List (Option (Json Float))) {place inner : Place} {final : σ}
    (hlength : values.length = schema.fields.length)
    (hnames : (schema.fields.map Field.name).Nodup) (hinner : place.enter = .ok inner)
    (h : Fills inner (schema.fields.zip values) schema.blank final) :
    schema.read place (outlineOf (schema.written values)) = .ok final := by
  have hfst : (schema.fields.zip values).map Prod.fst = schema.fields :=
    List.map_fst_zip hlength.ge
  have hrowNames : ((schema.fields.zip values).map (·.1.name)).Nodup := by
    rw [← hfst, List.map_map] at hnames
    exact hnames
  obtain ⟨after, hread, -, hrequired⟩ := readMembers_rowMembers schema h
    (fun row hrow => find?_name hnames (List.of_mem_zip hrow).1) [] hrowNames
    fun _ _ hmem => nomatch hmem
  have hnone : schema.missing? after = none := by
    rw [missing?, List.find?_eq_none]
    intro field hfield
    rw [← hfst] at hfield
    obtain ⟨row, hrow, rfl⟩ := List.mem_map.mp hfield
    cases hreq : row.1.required with
    | false => simp
    | true => simp [hrequired row hrow hreq]
  rw [written, outlineOf_present, read, hinner]
  simp only [bind, Except.bind, hread, hnone]
  rfl

end Schema

/-! ## What is read -/

/-- Reading a field keeps what holds of the structure. -/
def Field.Keeps (field : Field σ) (place : Place) (holds : σ → Prop) : Prop :=
  ∀ outline whole next, holds whole → field.read place outline whole = .ok next → holds next

/-- A field keeps what holds of the whole if every value that it can store does. -/
theorem Field.keeps_of {β : Type} {place : Place} {name : String} {required : Bool}
    {read : Reader β} {store : β → σ → σ} {holds : σ → Prop}
    (h : ∀ outline b, read place outline = .ok b → ∀ whole, holds whole → holds (store b whole)) :
    (Field.of name required read store).Keeps place holds := by
  intro outline whole next hwhole hread
  obtain ⟨b, hb, hnext⟩ := exists_of_bind_eq_ok hread
  cases hnext
  exact h outline b hb whole hwhole

namespace Schema

variable {schema : Schema σ} {holds : σ → Prop}

/-- What every field keeps holds of the structure that is read from members. -/
theorem holds_of_readMembers {place : Place}
    (hfields : ∀ field ∈ schema.fields, field.Keeps place holds) :
    ∀ (members : List Member) (seen : List String) (whole : σ) (result : List String × σ),
      holds whole → schema.readMembers place seen whole members = .ok result → holds result.2 := by
  intro members
  induction members with
  | nil =>
      intro seen whole result hwhole h
      cases h
      exact hwhole
  | cons member members ih =>
      intro seen whole result hwhole h
      obtain ⟨key, value⟩ := member
      cases key with
      | none => cases h
      | some key =>
          rw [readMembers] at h
          cases hfield : schema.field? key with
          | none =>
              simp only [hfield] at h
              split at h
              · exact ih seen whole result hwhole h
              · exact absurd h ne_ok_cutHere
          | some field =>
              simp only [hfield] at h
              split at h
              · cases h
              · obtain ⟨next, hnext, h⟩ := exists_of_bind_eq_ok h
                have hmem : field ∈ schema.fields := List.mem_of_find?_eq_some hfield
                exact ih _ next result (hfields field hmem value whole next hwhole hnext) h

/-- What every field keeps holds of the structure that is read from elements. -/
theorem holds_of_readElements {place : Place} {closed : Bool} {fields : List (Field σ)}
    (hfields : ∀ field ∈ fields, field.Keeps place holds) :
    ∀ (items : List Outline) (index : ℕ) (whole final : σ), holds whole →
      schema.readElements place closed index whole fields items = .ok final → holds final := by
  induction fields with
  | nil =>
      intro items index whole final hwhole h
      cases items with
      | nil =>
          rw [readElements] at h
          split at h
          · cases h
            exact hwhole
          · exact absurd h ne_ok_cutHere
      | cons item items => cases h
  | cons field fields ih =>
      intro items index whole final hwhole h
      cases items with
      | nil =>
          rw [readElements] at h
          split at h
          · split at h
            · cases h
            · cases h
              exact hwhole
          · exact absurd h ne_ok_cutHere
          · simp
      | cons item items =>
          rw [readElements] at h
          obtain ⟨next, hnext, h⟩ := exists_of_bind_eq_ok h
          exact ih (fun other hother => hfields other (List.mem_cons_of_mem _ hother)) items _ next
            final (hfields field List.mem_cons_self item whole next hwhole hnext) h

/-- What holds of the blank structure and is kept by every field holds of all that is read. -/
theorem holds_of_read (schema : Schema σ) (holds : σ → Prop) {place : Place}
    (hblank : holds schema.blank)
    (hfields : ∀ inner, place.levels = inner.levels + 1 →
      ∀ field ∈ schema.fields, field.Keeps inner holds)
    {outline : Outline} {final : σ} (h : schema.read place outline = .ok final) : holds final := by
  cases outline with
  | object members closed =>
      obtain ⟨inner, hinner, h⟩ := exists_of_bind_eq_ok h
      obtain ⟨⟨seen, whole⟩, hread, h⟩ := exists_of_bind_eq_ok h
      have hwhole := holds_of_readMembers (hfields inner (Place.enter_eq_ok_iff.mp hinner).1)
        _ _ _ _ hblank hread
      cases closed with
      | false => exact absurd h ne_ok_cutHere
      | true =>
          cases hmissing : schema.missing? seen with
          | some field =>
              simp only [hmissing] at h
              cases h
          | none =>
              simp only [hmissing] at h
              cases h
              exact hwhole
  | array items closed =>
      obtain ⟨inner, hinner, h⟩ := exists_of_bind_eq_ok h
      exact holds_of_readElements (hfields inner (Place.enter_eq_ok_iff.mp hinner).1) _ _ _ _
        hblank h
  | _ => exact absurd h ne_ok_mismatch

end Schema

end Json

end Montage
