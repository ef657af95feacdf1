import Montage.Proofs.Json.Structures

/-!
# The members of an object, in any order

The members of an object are taken one after the other (`Schema.Takes`).  What one of them
does to the structure commutes with what another does, if they are for different fields
(`Field.Commutes`), so the order of the members does not matter
(`Schema.read_of_perm`).  Whatever holds of a member anywhere can therefore be shown for one
that stands first.
-/

namespace Montage

namespace Json

variable {σ : Type}

/-- Reading two fields one after the other comes to the same in either order. -/
def Field.Commutes (first second : Field σ) : Prop :=
  ∀ (place : Place) (v w : Outline) (whole final : σ),
    (first.read place v whole >>= second.read place w) = .ok final ↔
      (second.read place w whole >>= first.read place v) = .ok final

theorem Field.Commutes.symm {first second : Field σ} (h : first.Commutes second) :
    second.Commutes first :=
  fun place v w whole final => (h place w v whole final).symm

instance : Std.Symm (@Field.Commutes σ) := ⟨fun _ _ h => h.symm⟩

/-- Fields commute when what they store does. -/
theorem Field.commutes_of {β γ : Type} {name other : String} {required needed : Bool}
    {read : Reader β} {reads : Reader γ} {store : β → σ → σ} {stores : γ → σ → σ}
    (h : ∀ b c whole, stores c (store b whole) = store b (stores c whole)) :
    (Field.of name required read store).Commutes (.of other needed reads stores) := by
  intro place v w whole final
  simp only [Field.of]
  cases read place v <;> cases reads place w <;>
    simp [bind, Except.bind, pure, Except.pure, h]

namespace Schema

variable (schema : Schema σ)

/-- Fields with names of their own that commute with one another. -/
structure Orderless : Prop where
  names : (schema.fields.map Field.name).Nodup
  commutes : schema.fields.Pairwise Field.Commutes

/-- What taking one member does: it is passed over, or it is for a field that has not been
read. -/
inductive Takes (place : Place) : List String → σ → Member → List String → σ → Prop
  | passed {seen : List String} {whole : σ} {key : String} {value : Outline}
      (unknown : schema.field? key = none) (complete : value.complete = true) :
      Takes place seen whole (some key, value) seen whole
  | read {seen : List String} {whole next : σ} {key : String} {value : Outline} {field : Field σ}
      (known : schema.field? key = some field) (fresh : key ∉ seen)
      (read : field.read place value whole = .ok next) :
      Takes place seen whole (some key, value) (key :: seen) next

variable {schema} {place : Place}

/-- Members are read when the first is taken and the others are read behind it. -/
theorem readMembers_cons_eq_ok_iff {seen : List String} {whole : σ} {member : Member}
    {members : List Member} {result : List String × σ} :
    schema.readMembers place seen whole (member :: members) = .ok result ↔
      ∃ names next, schema.Takes place seen whole member names next ∧
        schema.readMembers place names next members = .ok result := by
  obtain ⟨key, value⟩ := member
  constructor
  · intro h
    cases key with
    | none => cases h
    | some key =>
        rw [readMembers] at h
        cases hfield : schema.field? key with
        | none =>
            simp only [hfield] at h
            split at h
            · rename_i hcomplete
              exact ⟨seen, whole, .passed hfield hcomplete, h⟩
            · exact absurd h ne_ok_cutHere
        | some field =>
            simp only [hfield] at h
            split at h
            · cases h
            · rename_i hfresh
              obtain ⟨next, hnext, h⟩ := exists_of_bind_eq_ok h
              rw [List.contains_iff_mem] at hfresh
              exact ⟨key :: seen, next, .read hfield hfresh hnext, h⟩
  · rintro ⟨names, next, htakes, h⟩
    cases htakes with
    | passed unknown complete =>
        rw [readMembers, unknown]
        simp only [complete, ↓reduceIte, h]
    | read known fresh read =>
        rw [← List.contains_iff_mem] at fresh
        rw [readMembers, known]
        simp only [fresh, Bool.false_eq_true, ↓reduceIte, read]
        exact h

/-! ## What has been seen -/

/-- The same names among those that matter. -/
def SeenAlike (matters : String → Prop) (seen other : List String) : Prop :=
  ∀ name, matters name → (name ∈ seen ↔ name ∈ other)

variable {matters : String → Prop}

theorem SeenAlike.refl (seen : List String) : SeenAlike matters seen seen := fun _ _ => Iff.rfl

theorem SeenAlike.symm {seen other : List String} (h : SeenAlike matters seen other) :
    SeenAlike matters other seen :=
  fun name hname => (h name hname).symm

theorem SeenAlike.trans {seen other third : List String} (h : SeenAlike matters seen other)
    (h' : SeenAlike matters other third) : SeenAlike matters seen third :=
  fun name hname => (h name hname).trans (h' name hname)

/-- One more name keeps lists alike. -/
theorem SeenAlike.cons {seen other : List String} (h : SeenAlike matters seen other)
    (key : String) : SeenAlike matters (key :: seen) (key :: other) := by
  intro name hname
  rw [List.mem_cons, List.mem_cons, h name hname]

/-- A member is taken behind other names in the same way, if those that matter are the
same. -/
theorem Takes.of_seenAlike {seen names other : List String} {whole next : σ} {member : Member}
    (h : schema.Takes place seen whole member names next)
    (hmember : ∀ key ∈ member.1, matters key) (hseen : SeenAlike matters seen other) :
    ∃ names', schema.Takes place other whole member names' next ∧
      SeenAlike matters names names' := by
  cases h with
  | passed unknown complete => exact ⟨other, .passed unknown complete, hseen⟩
  | read known fresh read =>
      refine ⟨_, .read known ?_ read, hseen.cons _⟩
      rwa [← hseen _ (hmember _ rfl)]

/-- What is read does not depend on names that none of the members has. -/
theorem exists_of_seenAlike {members : List Member}
    (hmembers : ∀ member ∈ members, ∀ key ∈ member.1, matters key) {seen names other : List String}
    {whole final : σ} (hseen : SeenAlike matters seen other)
    (h : schema.readMembers place seen whole members = .ok (names, final)) :
    ∃ names', schema.readMembers place other whole members = .ok (names', final) ∧
      SeenAlike matters names names' := by
  induction members generalizing seen other whole with
  | nil =>
      cases h
      exact ⟨other, rfl, hseen⟩
  | cons member members ih =>
      obtain ⟨hmember, hrest⟩ := List.forall_mem_cons.mp hmembers
      obtain ⟨between, next, htakes, h⟩ := readMembers_cons_eq_ok_iff.mp h
      obtain ⟨between', htakes', hbetween⟩ := htakes.of_seenAlike hmember hseen
      obtain ⟨names', hnames, halike⟩ := ih hrest hbetween h
      exact ⟨names', readMembers_cons_eq_ok_iff.mpr ⟨between', next, htakes', hnames⟩, halike⟩

/-! ## Any order -/

section

variable (h : schema.Orderless)

include h

/-- Fields of different names can be read in either order. -/
theorem Orderless.commutes_of_ne {key other : String} {field second : Field σ}
    (hfield : schema.field? key = some field) (hsecond : schema.field? other = some second)
    (hne : key ≠ other) : field.Commutes second := by
  have hdiffer : field ≠ second := by
    rintro rfl
    have hkey := List.find?_some hfield
    have hother := List.find?_some hsecond
    rw [beq_iff_eq] at hkey hother
    exact hne (hkey.symm.trans hother)
  exact h.commutes.forall (List.mem_of_find?_eq_some hfield) (List.mem_of_find?_eq_some hsecond)
    hdiffer

/-- Two members can be taken in either order. -/
theorem Takes.swap {seen between names : List String} {whole next final : σ}
    {member second : Member} (hfirst : schema.Takes place seen whole member between next)
    (hsecond : schema.Takes place between next second names final) :
    ∃ between' next' names', schema.Takes place seen whole second between' next' ∧
      schema.Takes place between' next' member names' final ∧ SeenAlike matters names names' := by
  cases hfirst with
  | passed unknown complete =>
      cases hsecond with
      | passed unknown' complete' =>
          exact ⟨_, _, _, .passed unknown' complete', .passed unknown complete, .refl _⟩
      | read known fresh read =>
          exact ⟨_, _, _, .read known fresh read, .passed unknown complete, .refl _⟩
  | read known fresh read =>
      cases hsecond with
      | passed unknown' complete' =>
          exact ⟨_, _, _, .passed unknown' complete', .read known fresh read, .refl _⟩
      | read known' fresh' read' =>
          rw [List.mem_cons, not_or] at fresh'
          obtain ⟨hne, fresh'⟩ := fresh'
          have hcommutes := h.commutes_of_ne known known' (Ne.symm hne)
          obtain ⟨next', hnext', hfinal⟩ := exists_of_bind_eq_ok
            ((hcommutes _ _ _ _ _).mp (by rw [read]; exact read'))
          refine ⟨_, next', _, .read known' fresh' hnext', .read known ?_ hfinal, fun name _ => ?_⟩
          · rw [List.mem_cons, not_or]
            exact ⟨Ne.symm hne, fresh⟩
          · simp only [List.mem_cons]
            tauto

/-- The order of members does not matter. -/
theorem exists_of_perm {members other : List Member} (hperm : members.Perm other)
    {seen names : List String} {whole final : σ}
    (hread : schema.readMembers place seen whole members = .ok (names, final)) :
    ∃ names', schema.readMembers place seen whole other = .ok (names', final) ∧
      SeenAlike (fun _ => True) names names' := by
  induction hperm generalizing seen names whole final with
  | nil => exact ⟨names, hread, .refl _⟩
  | cons member _ ih =>
      obtain ⟨between, next, htakes, hread⟩ := readMembers_cons_eq_ok_iff.mp hread
      obtain ⟨names', hnames, halike⟩ := ih hread
      exact ⟨names', readMembers_cons_eq_ok_iff.mpr ⟨between, next, htakes, hnames⟩, halike⟩
  | swap second first rest =>
      obtain ⟨between, next, hfirst, hread⟩ := readMembers_cons_eq_ok_iff.mp hread
      obtain ⟨behind, after, hsecond, hread⟩ := readMembers_cons_eq_ok_iff.mp hread
      obtain ⟨between', next', behind', hsecond', hfirst', halike⟩ := hfirst.swap h hsecond
      obtain ⟨names', hnames, hfinal⟩ :=
        exists_of_seenAlike (fun _ _ _ _ => trivial) halike hread
      exact ⟨names', readMembers_cons_eq_ok_iff.mpr ⟨between', next', hsecond',
        readMembers_cons_eq_ok_iff.mpr ⟨behind', after, hfirst', hnames⟩⟩, hfinal⟩
  | trans _ _ ih ih' =>
      obtain ⟨middle, hmiddle, halike⟩ := ih hread
      obtain ⟨names', hnames, halike'⟩ := ih' hmiddle
      exact ⟨names', hnames, halike.trans halike'⟩

end

/-! ## Objects -/

/-- An object is read when its members are and no required one is missing. -/
theorem read_object_eq_ok_iff {members : List Member} {final : σ} :
    schema.read place (.object members true) = .ok final ↔
      ∃ inner names, place.enter = .ok inner ∧
        schema.readMembers inner [] schema.blank members = .ok (names, final) ∧
        schema.missing? names = none := by
  constructor
  · intro h
    obtain ⟨inner, hinner, h⟩ := exists_of_bind_eq_ok h
    obtain ⟨⟨names, whole⟩, hread, h⟩ := exists_of_bind_eq_ok h
    simp only [↓reduceIte] at h
    split at h
    · cases h
    · rename_i hmissing
      cases h
      exact ⟨inner, names, hinner, hread, hmissing⟩
  · rintro ⟨inner, names, hinner, hread, hmissing⟩
    rw [read, hinner]
    simp only [bind, Except.bind, hread, hmissing]
    rfl

/-- Nothing is missing when every required field has been named. -/
theorem missing?_eq_none_iff {names : List String} :
    schema.missing? names = none ↔
      ∀ field ∈ schema.fields, field.required = true → field.name ∈ names := by
  rw [missing?, List.find?_eq_none]
  simp

/-- Names that are not those of required fields do not matter when fields are missed. -/
theorem missing?_of_seenAlike {names other : List String} (h : SeenAlike matters names other)
    (hrequired : ∀ field ∈ schema.fields, field.required = true → matters field.name) :
    schema.missing? names = none ↔ schema.missing? other = none := by
  simp only [missing?_eq_none_iff]
  exact forall₃_congr fun field hfield hreq => h field.name (hrequired field hfield hreq)

/-- The order of the members of an object does not matter. -/
theorem read_of_perm (h : schema.Orderless) {members other : List Member}
    (hperm : members.Perm other) {final : σ}
    (hread : schema.read place (.object members true) = .ok final) :
    schema.read place (.object other true) = .ok final := by
  obtain ⟨inner, names, hinner, hmembers, hmissing⟩ := read_object_eq_ok_iff.mp hread
  obtain ⟨names', hother, halike⟩ := exists_of_perm h hperm hmembers
  rw [missing?_of_seenAlike halike fun _ _ _ => trivial] at hmissing
  exact read_object_eq_ok_iff.mpr ⟨inner, names', hinner, hother, hmissing⟩

/-- A member that names no field is passed over. -/
theorem read_unknown_iff {key : String} {value : Outline} {members : List Member} {final : σ}
    (hkey : schema.field? key = none) (hvalue : value.complete = true) :
    schema.read place (.object ((some key, value) :: members) true) = .ok final ↔
      schema.read place (.object members true) = .ok final := by
  have hpassed : ∀ inner, schema.readMembers inner [] schema.blank ((some key, value) :: members)
      = schema.readMembers inner [] schema.blank members := by
    intro inner
    rw [readMembers, hkey]
    exact if_pos hvalue
  simp only [read_object_eq_ok_iff, hpassed]

/-- A member that leaves the blank structure as it is need not stand, if it is the only one
for its field. -/
theorem read_silent_iff {key : String} {value : Outline} {members : List Member} {final : σ}
    {field : Field σ} (hkey : schema.field? key = some field) (hoptional : field.required = false)
    (hnames : (schema.fields.map Field.name).Nodup)
    (hvalue : ∀ inner, place.enter = .ok inner →
      field.read inner value schema.blank = .ok schema.blank)
    (habsent : ∀ member ∈ members, member.1 ≠ some key) :
    schema.read place (.object ((some key, value) :: members) true) = .ok final ↔
      schema.read place (.object members true) = .ok final := by
  have hmatter : ∀ member ∈ members, ∀ other ∈ member.1, other ≠ key := by
    rintro member hmember other hother rfl
    exact habsent member hmember hother
  have hrequired : ∀ other ∈ schema.fields, other.required = true → other.name ≠ key := by
    intro other hother hreq hname
    have hfound := find?_name hnames hother
    rw [hname] at hfound
    rw [Option.some.inj (hfound.symm.trans hkey), hoptional] at hreq
    cases hreq
  -- the name of the field is the only one in which the two lists of names differ
  have hadded : SeenAlike (· ≠ key) [] [key] := by
    intro name hname
    simp [hname]
  have htakes : ∀ inner, place.enter = .ok inner →
      schema.Takes inner [] schema.blank (some key, value) [key] schema.blank :=
    fun inner hinner => .read hkey List.not_mem_nil (hvalue inner hinner)
  constructor
  · intro h
    obtain ⟨inner, names, hinner, hread, hmissing⟩ := read_object_eq_ok_iff.mp h
    obtain ⟨between, next, hfirst, hread⟩ := readMembers_cons_eq_ok_iff.mp hread
    cases hfirst with
    | passed unknown =>
        rw [unknown] at hkey
        cases hkey
    | read known _ hnext =>
        obtain rfl := Option.some.inj (known.symm.trans hkey)
        cases (hvalue inner hinner).symm.trans hnext
        obtain ⟨names', hnames', halike⟩ := exists_of_seenAlike hmatter hadded.symm hread
        rw [missing?_of_seenAlike halike hrequired] at hmissing
        exact read_object_eq_ok_iff.mpr ⟨inner, names', hinner, hnames', hmissing⟩
  · intro h
    obtain ⟨inner, names, hinner, hread, hmissing⟩ := read_object_eq_ok_iff.mp h
    obtain ⟨names', hnames', halike⟩ := exists_of_seenAlike hmatter hadded hread
    rw [missing?_of_seenAlike halike hrequired] at hmissing
    exact read_object_eq_ok_iff.mpr ⟨inner, names', hinner,
      readMembers_cons_eq_ok_iff.mpr ⟨[key], schema.blank, htakes inner hinner, hnames'⟩, hmissing⟩

/-- A field stands at most once. -/
theorem not_read_of_twice (h : schema.Orderless) {key : String} {value again : Outline}
    {members rest : List Member}
    (hperm : members.Perm ((some key, value) :: (some key, again) :: rest))
    {field : Field σ} (hkey : schema.field? key = some field) {final : σ} :
    schema.read place (.object members true) ≠ .ok final := by
  intro hread
  obtain ⟨inner, names, -, hmembers, -⟩ := read_object_eq_ok_iff.mp (read_of_perm h hperm hread)
  obtain ⟨between, next, hfirst, hmembers⟩ := readMembers_cons_eq_ok_iff.mp hmembers
  obtain ⟨behind, after, hsecond, -⟩ := readMembers_cons_eq_ok_iff.mp hmembers
  cases hfirst with
  | passed unknown =>
      rw [unknown] at hkey
      cases hkey
  | read =>
      cases hsecond with
      | passed unknown =>
          rw [unknown] at hkey
          cases hkey
      | read _ fresh => exact fresh List.mem_cons_self

end Schema

end Json

end Montage
