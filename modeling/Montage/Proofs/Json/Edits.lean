import Montage.Proofs.Json.Members

/-!
# Edits of an outline

Outlines can differ and still tell the same: in the order of members, in members that name no
field, and in members that say what is meant when they are left out (`Form.Rearranged`).
Another member for a field that has one is never read (`Form.Repeated`).

`Inside` carries an edit of the members of one object to the outline around it, however deep
the object stands, and `Schema.follows_inside` what is read of it.
-/

namespace Montage

namespace Json

/-! ## Results before and after a change -/

/-- What a change makes of a result: a harmless one leaves it as it is, and after any other
there is none. -/
def Follows {ε β : Type} (harmless : Prop) (after before : Except ε β) : Prop :=
  ∀ b, after = .ok b ↔ harmless ∧ before = .ok b

section

variable {ε β γ : Type} {harmless : Prop} {after before : Except ε β}

/-- A reader that fails before and after an edit follows it. -/
theorem Follows.error (fault : ε) :
    Follows harmless (Except.error fault : Except ε β) (.error fault) := by
  intro b
  simp

/-- What goes on in one way from both readings follows the edit as they do. -/
theorem Follows.bind (h : Follows harmless after before) (next : β → Except ε γ) :
    Follows harmless (after >>= next) (before >>= next) := by
  intro c
  constructor
  · intro hafter
    obtain ⟨b, hb, hc⟩ := exists_of_bind_eq_ok hafter
    obtain ⟨hharmless, hb⟩ := (h b).mp hb
    rw [hb]
    exact ⟨hharmless, hc⟩
  · rintro ⟨hharmless, hbefore⟩
    obtain ⟨b, hb, hc⟩ := exists_of_bind_eq_ok hbefore
    rw [(h b).mpr ⟨hharmless, hb⟩]
    exact hc

/-- So do two ways of going on that follow it behind one reading. -/
theorem Follows.bind_right {next next' : β → Except ε γ} (action : Except ε β)
    (h : ∀ b, action = .ok b → Follows harmless (next' b) (next b)) :
    Follows harmless (action >>= next') (action >>= next) := by
  cases action with
  | ok b => exact h b rfl
  | error fault => exact .error fault

/-- A harmless edit is followed when both readings give the same. -/
theorem follows_true_iff : Follows True after before ↔ ∀ b, after = .ok b ↔ before = .ok b := by
  simp only [Follows, true_and]

/-- A harmful edit is followed when nothing is read any more. -/
theorem follows_false_iff : Follows False after before ↔ ∀ b, after ≠ .ok b := by
  simp only [Follows, false_and, iff_false, ne_eq]

end

/-! ## Edits of members -/

/-- What is known of the objects of one kind: the keys of their fields, and the members that
say what is meant when they are left out. -/
structure Form where
  keys : List String
  silent : String → Outline → Prop

namespace Form

variable (form : Form)

/-- Members that tell the same. -/
inductive Rearranged : List Member → List Member → Prop
  /-- In another order. -/
  | permuted {members other : List Member} (perm : members.Perm other) : Rearranged members other
  /-- With a member that names no field. -/
  | unknown {front back : List Member} {key : String} {value : Outline} (unknown : key ∉ form.keys)
      (whole : value.Whole) : Rearranged (front ++ back) (front ++ (some key, value) :: back)
  /-- With a member that says what has been meant. -/
  | silent {front back : List Member} {key : String} {value : Outline}
      (silent : form.silent key value) (absent : ∀ member ∈ front ++ back, member.1 ≠ some key) :
      Rearranged (front ++ back) (front ++ (some key, value) :: back)

/-- Members with a second one for a field that has one. -/
inductive Repeated : List Member → List Member → Prop
  | second {front back : List Member} {key : String} {first value : Outline}
      (known : key ∈ form.keys) (first : (some key, first) ∈ front ++ back) :
      Repeated (front ++ back) (front ++ (some key, value) :: back)

end Form

/-- The outline of a structure in which one thing is edited: the members of the object itself,
or the value of a field, be it written as an object or as an array. -/
inductive Inside (keys : List String) (edit : List Member → List Member → Prop)
    (within : String → Outline → Outline → Prop) : Outline → Outline → Prop
  | here {members edited : List Member} (h : edit members edited) :
      Inside keys edit within (.object members true) (.object edited true)
  | member {front back : List Member} {key : String} {value edited : Outline}
      (h : within key value edited) :
      Inside keys edit within (.object (front ++ (some key, value) :: back) true)
        (.object (front ++ (some key, edited) :: back) true)
  | element {front back : List Outline} {key : String} {value edited : Outline}
      (place : keys[front.length]? = some key) (h : within key value edited) :
      Inside keys edit within (.array (front ++ value :: back) true)
        (.array (front ++ edited :: back) true)

/-- A list in which one item is edited. -/
inductive InItem (edit : Outline → Outline → Prop) : Outline → Outline → Prop
  | item {front back : List Outline} {item edited : Outline} (h : edit item edited) :
      InItem edit (.array (front ++ item :: back) true) (.array (front ++ edited :: back) true)

/-- An edit lies within an object or a list, so neither text is `null`. -/
theorem Inside.ne_null {keys : List String} {edit : List Member → List Member → Prop}
    {within : String → Outline → Outline → Prop} {value edited : Outline}
    (h : Inside keys edit within value edited) : value ≠ .null ∧ edited ≠ .null := by
  cases h <;> exact ⟨nofun, nofun⟩

/-! ## What is read of single values -/

section

variable {β : Type} {harmless : Prop} {read : Reader β} {place : Place}

/-- A value that can be missing follows an edit that does not touch `null`. -/
theorem follows_readOptional {value edited : Outline} (hvalue : value ≠ .null)
    (hedited : edited ≠ .null) (h : Follows harmless (read place edited) (read place value)) :
    Follows harmless (readOptional read place edited) (readOptional read place value) := by
  rw [readOptional_eq read place hvalue, readOptional_eq read place hedited]
  exact h.bind _

/-- A list follows the edit of one of its items. -/
theorem follows_readItems {item edited : Outline}
    (h : Follows harmless (read place edited) (read place item)) (front back : List Outline) :
    Follows harmless (readItems read place (front ++ edited :: back))
      (readItems read place (front ++ item :: back)) := by
  induction front with
  | nil => exact h.bind _
  | cons first front ih => exact .bind_right (read place first) fun _ _ => ih.bind _

/-- A list is read as its items are. -/
theorem follows_readList {edit : Outline → Outline → Prop} {value edited : Outline}
    (h : InItem edit value edited)
    (hitem : ∀ inner item edited, place.levels = inner.levels + 1 → edit item edited →
      Follows harmless (read inner edited) (read inner item)) :
    Follows harmless (readList read place edited) (readList read place value) := by
  cases h with
  | @item front back item edited h =>
      refine .bind_right place.enter fun inner hinner => ?_
      have hlevels := (Place.enter_eq_ok_iff.mp hinner).1
      exact (follows_readItems (hitem inner item edited hlevels h) front back).bind _

/-- A field follows the edit of its value. -/
theorem follows_of {σ : Type} {name : String} {required : Bool} {store : β → σ → σ}
    {value edited : Outline} (h : Follows harmless (read place edited) (read place value))
    (whole : σ) : Follows harmless ((Field.of name required read store).read place edited whole)
      ((Field.of name required read store).read place value whole) :=
  h.bind _

end

/-! ## What is read of structures -/

namespace Schema

variable {σ : Type} {schema : Schema σ} {form : Form} {harmless : Prop} {place : Place}

/-- A structure whose fields are those of a form. -/
structure Fits (schema : Schema σ) (form : Form) : Prop where
  orderless : schema.Orderless
  keys : schema.fields.map Field.name = form.keys
  silent : ∀ key value, form.silent key value → ∃ field, schema.field? key = some field ∧
    field.required = false ∧
      ∀ inner : Place, 0 < inner.levels → field.read inner value schema.blank = .ok schema.blank

/-- A key that the form does not know belongs to no field. -/
theorem Fits.field?_eq_none (h : schema.Fits form) {key : String} (hkey : key ∉ form.keys) :
    schema.field? key = none := by
  rw [field?, List.find?_eq_none]
  intro field hfield hname
  rw [← h.keys] at hkey
  exact hkey (beq_iff_eq.mp hname ▸ List.mem_map_of_mem hfield)

/-- A key that the form knows belongs to a field. -/
theorem Fits.exists_field (h : schema.Fits form) {key : String} (hkey : key ∈ form.keys) :
    ∃ field, schema.field? key = some field := by
  rw [← h.keys] at hkey
  obtain ⟨field, hfield, rfl⟩ := List.mem_map.mp hkey
  exact ⟨field, find?_name h.orderless.names hfield⟩

/-- Members that tell the same are read as the same. -/
theorem follows_rearranged (h : schema.Fits form) {members edited : List Member}
    (hedit : form.Rearranged members edited) (hroom : 1 < place.levels) :
    Follows True (schema.read place (.object edited true))
      (schema.read place (.object members true)) := by
  refine follows_true_iff.mpr fun final => ?_
  have hperm : ∀ {members other : List Member}, members.Perm other →
      (schema.read place (.object members true) = .ok final ↔
        schema.read place (.object other true) = .ok final) :=
    fun hperm => ⟨read_of_perm h.orderless hperm, read_of_perm h.orderless hperm.symm⟩
  cases hedit with
  | permuted perm => exact (hperm perm).symm
  | unknown unknown whole =>
      rw [hperm List.perm_middle]
      exact read_unknown_iff (h.field?_eq_none unknown) whole.complete
  | silent silent absent =>
      obtain ⟨field, hfield, hoptional, hread⟩ := h.silent _ _ silent
      rw [hperm List.perm_middle]
      refine read_silent_iff hfield hoptional h.orderless.names (fun inner hinner => ?_) absent
      have hlevels := (Place.enter_eq_ok_iff.mp hinner).1
      exact hread inner (by omega)

/-- Nothing is read of members with a second one for a field. -/
theorem follows_repeated (h : schema.Fits form) {members edited : List Member}
    (hedit : form.Repeated members edited) :
    Follows False (schema.read place (.object edited true))
      (schema.read place (.object members true)) := by
  refine follows_false_iff.mpr fun final => ?_
  cases hedit with
  | @second front back key first value known hfirst =>
      obtain ⟨field, hfield⟩ := h.exists_field known
      obtain ⟨before, after, hmembers⟩ := List.append_of_mem hfirst
      have htwice : (front ++ (some key, value) :: back).Perm
          ((some key, value) :: (some key, first) :: (before ++ after)) := by
        refine List.perm_middle.trans (.cons _ ?_)
        rw [hmembers]
        exact List.perm_middle
      exact not_read_of_twice h.orderless htwice hfield

variable {key : String} {value edited : Outline} {field : Field σ}

/-- The members of an object follow the edit of the value of one, wherever it stands. -/
theorem follows_readMembers (hfield : schema.field? key = some field)
    (h : ∀ whole, Follows harmless (field.read place edited whole) (field.read place value whole))
    (back : List Member) (front : List Member) (seen : List String) (whole : σ) :
    Follows harmless (schema.readMembers place seen whole (front ++ (some key, edited) :: back))
      (schema.readMembers place seen whole (front ++ (some key, value) :: back)) := by
  induction front generalizing seen whole with
  | nil =>
      rw [List.nil_append, List.nil_append, readMembers, readMembers, hfield]
      simp only
      split
      · exact .error _
      · exact (h whole).bind _
  | cons member front ih =>
      obtain ⟨name, other⟩ := member
      rw [List.cons_append, List.cons_append]
      cases name with
      | none => exact .error _
      | some name =>
          rw [readMembers, readMembers]
          cases schema.field? name with
          | none =>
              simp only
              split
              · exact ih seen whole
              · exact .error _
          | some known =>
              simp only
              split
              · exact .error _
              · exact .bind_right (known.read place other whole) fun next _ => ih _ next

/-- The elements of a list that is read as an object follow the edit of one, wherever it
stands. -/
theorem follows_readElements
    (h : ∀ whole, Follows harmless (field.read place edited whole) (field.read place value whole))
    (back : List Outline) (front : List Outline) (fields : List (Field σ)) (index : ℕ) (whole : σ)
    (hfield : fields[front.length]? = some field) :
    Follows harmless
      (schema.readElements place true index whole fields (front ++ edited :: back))
      (schema.readElements place true index whole fields (front ++ value :: back)) := by
  induction front generalizing fields index whole with
  | nil =>
      cases fields with
      | nil => cases hfield
      | cons first fields =>
          cases hfield
          exact (h whole).bind _
  | cons item front ih =>
      cases fields with
      | nil => cases hfield
      | cons first fields =>
          exact .bind_right (first.read place item whole) fun next _ => ih fields _ next hfield

/-- An edit inside a structure shows in what is read as it does where it is made. -/
theorem follows_inside (hfits : schema.Fits form) {edit : List Member → List Member → Prop}
    {within : String → Outline → Outline → Prop} {value edited : Outline}
    (hedit : ∀ members edited, edit members edited →
      Follows harmless (schema.read place (.object edited true))
        (schema.read place (.object members true)))
    (hwithin : ∀ key value edited, within key value edited →
      ∃ field, schema.field? key = some field ∧
        ∀ inner whole, place.levels = inner.levels + 1 →
          Follows harmless (field.read inner edited whole) (field.read inner value whole))
    (h : Inside form.keys edit within value edited) :
    Follows harmless (schema.read place edited) (schema.read place value) := by
  cases h with
  | here h => exact hedit _ _ h
  | @member front back key value edited h =>
      obtain ⟨field, hfield, hfollows⟩ := hwithin key value edited h
      refine .bind_right place.enter fun inner hinner => ?_
      have hlevels := (Place.enter_eq_ok_iff.mp hinner).1
      exact (follows_readMembers hfield (fun whole => hfollows inner whole hlevels) back front []
        schema.blank).bind _
  | @element front back key value edited hkey h =>
      obtain ⟨field, hfield, hfollows⟩ := hwithin key value edited h
      refine .bind_right place.enter fun inner hinner => ?_
      have hlevels := (Place.enter_eq_ok_iff.mp hinner).1
      have hplace : schema.fields[front.length]? = some field := by
        rw [← hfits.keys, List.getElem?_map] at hkey
        obtain ⟨other, hother, rfl⟩ := Option.map_eq_some_iff.mp hkey
        rw [hother, ← hfield]
        exact (find?_name hfits.orderless.names (List.mem_of_getElem? hother)).symm
      exact follows_readElements (fun whole => hfollows inner whole hlevels) back front
        schema.fields 0 schema.blank hplace

end Schema

end Json

end Montage
