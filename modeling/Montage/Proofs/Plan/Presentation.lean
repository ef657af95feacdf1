import Montage.Plan.Format
import Montage.Proofs.Json.Edits

/-!
# How a plan is presented

One plan has many texts.  They differ in blanks, in the order of members, in members that mean
nothing and in defaults that are spelled out, in the object of the plan or in any object inside
it; the plan that is read from them is the same.  A second member for a field of one of these
objects makes the text unreadable.

`Plan.EditedBy` is an edit of the members of one of the objects, and
`Plan.parse_of_presentation` the statement about texts.
-/

namespace Montage

open Json

/-! ## The objects of a plan -/

/-- Pairs of transitions have no defaults. -/
def TransitionPair.form : Form where
  keys := ["in", "out"]
  silent _ _ := False

/-- Footage begins at the head of its file unless something else is said. -/
def Clip.form : Form where
  keys := ["sourceReference", "trimStart", "length", "effect", "filter", "transition", "hints"]
  silent key value :=
    (key = "trimStart" ∧ ∃ numeral, value = .number numeral ∧ numeral.toFloat? = some 0) ∨
      (key ∈ ["effect", "filter", "transition", "hints"] ∧ value = .null)

/-- Captions stand in the middle unless something else is said. -/
def Overlay.form : Form where
  keys := ["text", "start", "duration", "position"]
  silent key value := key = "position" ∧ value = .string (some "center")

def Music.form : Form where
  keys := ["sourceReference", "volume"]
  silent key value := key = "volume" ∧ value = .null

/-- Plans have neither captions nor music unless something else is said. -/
def Plan.form : Form where
  keys := ["mode", "platform", "clips", "overlays", "music"]
  silent key value :=
    (key = "overlays" ∧ value = .array [] true) ∨ (key = "music" ∧ value = .null)

section

variable (edit : Form → List Member → List Member → Prop)

def TransitionPair.EditedBy : Outline → Outline → Prop :=
  Inside form.keys (edit form) fun _ _ _ => False

/-- A clip, or its pair of transitions, is edited. -/
def Clip.EditedBy : Outline → Outline → Prop :=
  Inside form.keys (edit form) fun key value edited =>
    key = "transition" ∧ TransitionPair.EditedBy edit value edited

def Overlay.EditedBy : Outline → Outline → Prop :=
  Inside form.keys (edit form) fun _ _ _ => False

def Music.EditedBy : Outline → Outline → Prop :=
  Inside form.keys (edit form) fun _ _ _ => False

/-- The members of one object of a plan are edited: those of the plan, of a clip, of a
caption, of the music or of a pair of transitions. -/
def Plan.EditedBy : Outline → Outline → Prop :=
  Inside form.keys (edit form) fun key value edited =>
    (key = "clips" ∧ InItem (Clip.EditedBy edit) value edited) ∨
      (key = "overlays" ∧ InItem (Overlay.EditedBy edit) value edited) ∨
        (key = "music" ∧ Music.EditedBy edit value edited)

end

/-! ## Their fields -/

/-- The fields of a pair of transitions are those of its form, and commute. -/
theorem TransitionPair.fits : TransitionPair.schema.Fits TransitionPair.form where
  orderless := by
    refine ⟨by decide, ?_⟩
    simp only [TransitionPair.schema, List.pairwise_cons, List.forall_mem_cons, List.not_mem_nil,
      false_imp_iff, implies_true, and_true, List.Pairwise.nil]
    exact Field.commutes_of fun _ _ _ => rfl
  keys := rfl
  silent _ _ h := h.elim

/-- The fields of a clip commute, and a trim of zero or a null is read like nothing. -/
theorem Clip.fits : Clip.schema.Fits Clip.form where
  orderless := by
    refine ⟨by decide, ?_⟩
    simp only [Clip.schema, List.pairwise_cons, List.forall_mem_cons, List.not_mem_nil,
      false_imp_iff, implies_true, and_true, List.Pairwise.nil]
    and_intros <;> exact Field.commutes_of fun _ _ _ => rfl
  keys := rfl
  silent := by
    rintro key value (⟨rfl, numeral, rfl, hnumeral⟩ | ⟨hkey, rfl⟩)
    · refine ⟨_, rfl, rfl, fun inner _ => ?_⟩
      simp only [Field.of, readReal, hnumeral]
      rfl
    · simp only [List.mem_cons, List.not_mem_nil, or_false] at hkey
      rcases hkey with rfl | rfl | rfl | rfl <;> exact ⟨_, rfl, rfl, fun _ _ => rfl⟩

/-- The fields of a caption commute, and a caption in the center is read like one without a
position. -/
theorem Overlay.fits : Overlay.schema.Fits Overlay.form where
  orderless := by
    refine ⟨by decide, ?_⟩
    simp only [Overlay.schema, List.pairwise_cons, List.forall_mem_cons, List.not_mem_nil,
      false_imp_iff, implies_true, and_true, List.Pairwise.nil]
    and_intros <;> exact Field.commutes_of fun _ _ _ => rfl
  keys := rfl
  silent := by
    rintro key value ⟨rfl, rfl⟩
    exact ⟨_, rfl, rfl, fun _ _ => rfl⟩

/-- The fields of the music commute, and a null is read like no volume. -/
theorem Music.fits : Music.schema.Fits Music.form where
  orderless := by
    refine ⟨by decide, ?_⟩
    simp only [Music.schema, List.pairwise_cons, List.forall_mem_cons, List.not_mem_nil,
      false_imp_iff, implies_true, and_true, List.Pairwise.nil]
    exact Field.commutes_of fun _ _ _ => rfl
  keys := rfl
  silent := by
    rintro key value ⟨rfl, rfl⟩
    exact ⟨_, rfl, rfl, fun _ _ => rfl⟩

/-- The fields of a plan commute, and an empty list of captions or a null is read like
nothing. -/
theorem Plan.fits : Plan.schema.Fits Plan.form where
  orderless := by
    refine ⟨by decide, ?_⟩
    simp only [Plan.schema, List.pairwise_cons, List.forall_mem_cons, List.not_mem_nil,
      false_imp_iff, implies_true, and_true, List.Pairwise.nil]
    and_intros <;> exact Field.commutes_of fun _ _ _ => rfl
  keys := rfl
  silent := by
    rintro key value (⟨rfl, rfl⟩ | ⟨rfl, rfl⟩)
    · refine ⟨_, rfl, rfl, fun inner hroom => ?_⟩
      obtain ⟨deeper, hdeeper⟩ := Place.exists_enter hroom
      simp only [Field.of, readList, hdeeper]
      rfl
    · exact ⟨_, rfl, rfl, fun _ _ => rfl⟩

/-! ## What an edit shows -/

/-- Whether an edit of the members of an object shows in what is read of it. -/
def Shows (edit : Form → List Member → List Member → Prop) (harmless : Prop) : Prop :=
  ∀ {σ : Type} {schema : Schema σ} {form : Form}, schema.Fits form →
    ∀ {place : Place}, 1 < place.levels → ∀ members edited : List Member, edit form members edited →
      Follows harmless (schema.read place (.object edited true))
        (schema.read place (.object members true))

/-- Members that were rearranged are read as before. -/
theorem shows_rearranged : Shows Form.Rearranged True :=
  fun hfits _ hroom _ _ hedit => Schema.follows_rearranged hfits hedit hroom

/-- A member that was repeated is refused. -/
theorem shows_repeated : Shows Form.Repeated False :=
  fun hfits _ _ _ _ hedit => Schema.follows_repeated hfits hedit

section

variable {edit : Form → List Member → List Member → Prop} {harmless : Prop}
  (hedit : Shows edit harmless) {place : Place} {value edited : Outline}

include hedit

/-- An edit of the members of a pair of transitions shows in the pair as in any object. -/
theorem TransitionPair.follows (h : TransitionPair.EditedBy edit value edited)
    (hroom : 1 < place.levels) :
    Follows harmless (TransitionPair.schema.read place edited)
      (TransitionPair.schema.read place value) :=
  Schema.follows_inside fits (hedit fits hroom) (fun _ _ _ hwithin => hwithin.elim) h

/-- An edit in a clip, be it of its members or of its transition, shows in what is read. -/
theorem Clip.follows (h : Clip.EditedBy edit value edited) (hroom : 2 < place.levels) :
    Follows harmless (Clip.schema.read place edited) (Clip.schema.read place value) := by
  refine Schema.follows_inside fits (hedit fits (by omega)) ?_ h
  rintro _ value edited ⟨rfl, hpair⟩
  refine ⟨_, rfl, fun inner whole hlevels => follows_of ?_ whole⟩
  exact follows_readOptional hpair.ne_null.1 hpair.ne_null.2
    (TransitionPair.follows hedit hpair (by omega))

theorem Overlay.follows (h : Overlay.EditedBy edit value edited) (hroom : 1 < place.levels) :
    Follows harmless (Overlay.schema.read place edited) (Overlay.schema.read place value) :=
  Schema.follows_inside fits (hedit fits hroom) (fun _ _ _ hwithin => hwithin.elim) h

theorem Music.follows (h : Music.EditedBy edit value edited) (hroom : 1 < place.levels) :
    Follows harmless (Music.schema.read place edited) (Music.schema.read place value) :=
  Schema.follows_inside fits (hedit fits hroom) (fun _ _ _ hwithin => hwithin.elim) h

/-- An edit of any object of a plan shows in the plan; the deepest is the transition of a
clip. -/
theorem Plan.follows (h : Plan.EditedBy edit value edited) (hroom : 4 < place.levels) :
    Follows harmless (Plan.schema.read place edited) (Plan.schema.read place value) := by
  refine Schema.follows_inside fits (hedit fits (by omega)) ?_ h
  rintro _ value edited (⟨rfl, hclips⟩ | ⟨rfl, hoverlays⟩ | ⟨rfl, hmusic⟩)
  · refine ⟨_, rfl, fun inner whole hlevels => follows_of ?_ whole⟩
    exact follows_readList hclips fun deeper _ _ hdeeper hclip =>
      Clip.follows hedit hclip (by omega)
  · refine ⟨_, rfl, fun inner whole hlevels => follows_of ?_ whole⟩
    exact follows_readList hoverlays fun deeper _ _ hdeeper hoverlay =>
      Overlay.follows hedit hoverlay (by omega)
  · refine ⟨_, rfl, fun inner whole hlevels => follows_of ?_ whole⟩
    exact follows_readOptional hmusic.ne_null.1 hmusic.ne_null.2
      (Music.follows hedit hmusic (by omega))

/-- What is read of the texts of two outlines, one of them edited. -/
theorem Plan.follows_parse {text other : String} (h : Plan.EditedBy edit value edited)
    (htext : value.SpelledBy text) (hother : edited.SpelledBy other) :
    Follows harmless (Plan.parse other) (Plan.parse text) := by
  rw [Plan.parse, Plan.parse, parse_of_spelledBy _ htext, parse_of_spelledBy _ hother]
  exact Plan.follows hedit h (by decide)

end

/-- **A plan does not depend on how it is presented.**  A text from which a plan is read
spells an outline.  The same plan is read

* from every text of this outline, whatever blanks it has;
* from every text of an outline in which the members of one object of the plan are in another
  order, or have one more or one less that names no field, or that says what is meant without
  it.

Nothing is read where the members of one of these objects have a second one for a field. -/
theorem Plan.parse_of_presentation {text : String} {plan : Plan Float}
    (h : Plan.parse text = .ok plan) :
    (∃ root : Outline, root.SpelledBy text) ∧
      ∀ root : Outline, root.SpelledBy text →
        ∀ (edited : Outline) (other : String), edited.SpelledBy other →
          (edited = root → Plan.parse other = .ok plan) ∧
          (Plan.EditedBy Form.Rearranged root edited ∨ Plan.EditedBy Form.Rearranged edited root →
            Plan.parse other = .ok plan) ∧
          (Plan.EditedBy Form.Repeated root edited → ∀ result, Plan.parse other ≠ .ok result) := by
  refine ⟨exists_spelledBy_of_parse h, fun root hroot edited other hother => ⟨?_, ?_, ?_⟩⟩
  · rintro rfl
    rw [Plan.parse, parse_of_spelledBy _ hroot] at h
    rw [Plan.parse, parse_of_spelledBy _ hother, h]
  · rintro (hedit | hedit)
    · exact (Plan.follows_parse shows_rearranged hedit hroot hother plan).mpr ⟨trivial, h⟩
    · exact ((Plan.follows_parse shows_rearranged hedit hother hroot plan).mp h).2
  · exact fun hedit =>
      follows_false_iff.mp (Plan.follows_parse shows_repeated hedit hroot hother)

/-- The members of a plan of one clip. -/
def seaMembers (clip : List Member) : List Member :=
  [(some "mode", .string (some "vlog")),
    (some "platform", .string (some "tiktok")),
    (some "clips", .array [.object clip true] true)]

/-- What has to be said of a clip. -/
def seaClip : List Member :=
  [(some "sourceReference", .string (some "sea")), (some "length", .number ⟨false, 4, 0, true⟩)]

def seaText : String :=
  "\x7b\"mode\":\"vlog\",\"platform\":\"tiktok\","
    ++ "\"clips\":[\x7b\"sourceReference\":\"sea\",\"length\":4\x7d]\x7d"

theorem spelledBy_seaText : (Outline.object (seaMembers seaClip) true).SpelledBy seaText :=
  outline_eq_iff.mp rfl

/-- The same plan with a default that is spelled out, and one with two platforms. -/
theorem Plan.parse_of_presentation_with_default_spelled_out :
    ∃ plan, Plan.parse seaText = .ok plan ∧
      Plan.parse ("\x7b \"mode\": \"vlog\", \"platform\": \"tiktok\",\n"
        ++ "\"clips\": [\x7b\"trimStart\": 0.0, \"sourceReference\": \"sea\", \"length\": 4\x7d] \x7d")
          = .ok plan ∧
      ∀ result, Plan.parse ("\x7b\"platform\":7,\"mode\":\"vlog\",\"platform\":\"tiktok\","
        ++ "\"clips\":[\x7b\"sourceReference\":\"sea\",\"length\":4\x7d]\x7d") ≠ .ok result := by
  have hread : (Plan.parse seaText).toBool = true := by
    decide +kernel
  cases hplan : Plan.parse seaText with
  | error fault =>
      rw [hplan] at hread
      cases hread
  | ok plan =>
      obtain ⟨-, hsame⟩ := Plan.parse_of_presentation hplan
      have hedits := hsame _ spelledBy_seaText
      have hzero : (⟨false, 0, -1, false⟩ : Numeral).toFloat? = some 0 := by
        decide +kernel
      have hclip : Clip.form.Rearranged seaClip
          ((some "trimStart", .number ⟨false, 0, -1, false⟩) :: seaClip) :=
        @Form.Rearranged.silent Clip.form [] seaClip "trimStart" _ (.inl ⟨rfl, _, rfl, hzero⟩)
          (by decide)
      have hplan' : Plan.EditedBy Form.Rearranged (.object (seaMembers seaClip) true)
          (.object
            (seaMembers ((some "trimStart", .number ⟨false, 0, -1, false⟩) :: seaClip)) true) :=
        @Inside.member _ _ _ [_, _] [] "clips" _ _
          (.inl ⟨rfl, @InItem.item _ [] [] _ _ (.here hclip)⟩)
      have htwice : Plan.EditedBy Form.Repeated (.object (seaMembers seaClip) true)
          (.object ((some "platform", .number ⟨false, 7, 0, true⟩) :: seaMembers seaClip) true) :=
        .here (@Form.Repeated.second Plan.form [] (seaMembers seaClip) "platform"
          (.string (some "tiktok")) _ (by decide) (by simp [seaMembers]))
      exact ⟨plan, rfl, (hedits _ _ (outline_eq_iff.mp rfl)).2.1 (.inl hplan'),
        (hedits _ _ (outline_eq_iff.mp rfl)).2.2 htwice⟩

/-- A key that is half of a surrogate pair is no text: a member with such a key names no
field, and yet nothing is read where it stands. -/
theorem Plan.parse_of_half_key :
    (Plan.parse seaText).toBool = true ∧
      (Outline.object (seaMembers seaClip) true).SpelledBy seaText ∧
      (Outline.object ((none, .number ⟨false, 1, 0, true⟩) :: seaMembers seaClip) true).SpelledBy
        ("\x7b\"\\ud800\":1,\"mode\":\"vlog\",\"platform\":\"tiktok\","
          ++ "\"clips\":[\x7b\"sourceReference\":\"sea\",\"length\":4\x7d]\x7d") ∧
      (Plan.parse ("\x7b\"\\ud800\":1,\"mode\":\"vlog\",\"platform\":\"tiktok\","
        ++ "\"clips\":[\x7b\"sourceReference\":\"sea\",\"length\":4\x7d]\x7d")).toBool = false :=
  ⟨by decide +kernel, spelledBy_seaText, outline_eq_iff.mp rfl, by decide +kernel⟩

end Montage
