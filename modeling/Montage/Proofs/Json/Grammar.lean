import Montage.Json.Reader
import Montage.Proofs.Json.Lexemes

/-!
# Texts of an outline

A well-formed outline is `Outline.Whole`: it is not cut anywhere and all its containers are
closed.  Its tokens follow from it, so there is a text for every choice of words and blanks
(`Outline.SpelledBy`), and these are all texts that have this outline and nothing else
(`outline_eq_iff`).
-/

namespace Montage

namespace Json

/-- An outline that is cut nowhere. -/
inductive Outline.Whole : Outline → Prop
  | null : Whole .null
  | boolean (value : Bool) : Whole (.boolean value)
  | number (numeral : Numeral) : Whole (.number numeral)
  | string (text : Option String) : Whole (.string text)
  | array {items : List Outline} (each : ∀ item ∈ items, item.Whole) : Whole (.array items true)
  | object {members : List Member} (each : ∀ member ∈ members, member.2.Whole) :
      Whole (.object members true)

theorem Outline.Whole.complete {outline : Outline} (h : outline.Whole) :
    outline.complete = true := by
  cases h <;> rfl

/-- A list is whole when it is closed and its items are whole. -/
theorem Outline.whole_array_iff {items : List Outline} {closed : Bool} :
    (Outline.array items closed).Whole ↔ closed = true ∧ ∀ item ∈ items, item.Whole := by
  constructor
  · intro h
    cases h with
    | array each => exact ⟨rfl, each⟩
  · rintro ⟨rfl, each⟩
    exact .array each

/-- An object is whole when it is closed and its values are whole. -/
theorem Outline.whole_object_iff {members : List Member} {closed : Bool} :
    (Outline.object members closed).Whole ↔ closed = true ∧ ∀ member ∈ members, member.2.Whole := by
  constructor
  · intro h
    cases h with
    | object each => exact ⟨rfl, each⟩
  · rintro ⟨rfl, each⟩
    exact .object each

/-! ## The tokens of an outline -/

mutual

/-- The tokens of an outline. -/
def Outline.tokens : Outline → List Token
  | .cut => []
  | .null => [.null]
  | .boolean value => [.boolean value]
  | .number numeral => [.number numeral]
  | .string text => [.string text]
  | .array [] _ => [.openArray, .closeArray]
  | .array (item :: items) _ => .openArray :: item.tokens ++ moreItems items ++ [.closeArray]
  | .object [] _ => [.openObject, .closeObject]
  | .object ((key, value) :: members) _ =>
    .openObject :: .string key :: .colon :: value.tokens ++ moreMembers members ++ [.closeObject]

/-- The tokens of the items after the first. -/
def moreItems : List Outline → List Token
  | [] => []
  | item :: items => .comma :: item.tokens ++ moreItems items

/-- The tokens of the members after the first. -/
def moreMembers : List Member → List Token
  | [] => []
  | (key, value) :: members =>
    .comma :: .string key :: .colon :: value.tokens ++ moreMembers members

end

/-! ### Nothing follows a number that could go on with it -/

/-- A token that is no number needs no gap behind it. -/
theorem Apart.cons {token : Token} {tokens : List Token} (h : Apart tokens)
    (htoken : ∀ numeral, token ≠ .number numeral) : Apart (token :: tokens) := by
  cases tokens with
  | nil => exact .singleton _
  | cons next rest =>
      exact List.isChain_cons_cons.mpr
        ⟨fun ⟨numeral, hnumber⟩ => absurd hnumber (htoken numeral), h⟩

/-- Tokens that go on behind a value. -/
structure Resumes (tokens : List Token) : Prop where
  apart : Apart tokens
  ends : ∀ next ∈ tokens.head?, next.endsValue = true

/-- What begins behind the end of a value needs no gap in front. -/
theorem Resumes.cons {next : Token} {rest : List Token} (h : Apart rest)
    (hnext : next.endsValue = true) : Resumes (next :: rest) := by
  refine ⟨h.cons ?_, fun token htoken => ?_⟩
  · rintro numeral rfl
    cases hnext
  · cases htoken
    exact hnext

/-- A number in front of such tokens is apart from them. -/
theorem Resumes.number {rest : List Token} (h : Resumes rest) (numeral : Numeral) :
    Apart (.number numeral :: rest) := by
  cases rest with
  | nil => exact .singleton _
  | cons next rest => exact List.isChain_cons_cons.mpr ⟨fun _ => h.ends next rfl, h.apart⟩

mutual

/-- No two numbers meet in the tokens of an outline, nor at their end. -/
theorem apart_tokens {rest : List Token} (h : Resumes rest) :
    ∀ outline : Outline, Apart (outline.tokens ++ rest)
  | .cut => h.apart
  | .null => h.apart.cons fun _ => nofun
  | .boolean _ => h.apart.cons fun _ => nofun
  | .number numeral => h.number numeral
  | .string _ => h.apart.cons fun _ => nofun
  | .array [] _ => by
      have hclose : Apart (.closeArray :: rest) := h.apart.cons fun _ => nofun
      exact hclose.cons fun _ => nofun
  | .array (item :: items) _ => by
      have hclose : Resumes (.closeArray :: rest) := .cons h.apart rfl
      have hitem := apart_tokens (resumes_moreItems hclose items) item
      have hopen : Apart (.openArray :: _) := hitem.cons fun _ => nofun
      simpa [Outline.tokens] using hopen
  | .object [] _ => by
      have hclose : Apart (.closeObject :: rest) := h.apart.cons fun _ => nofun
      exact hclose.cons fun _ => nofun
  | .object ((key, value) :: members) _ => by
      have hclose : Resumes (.closeObject :: rest) := .cons h.apart rfl
      have hvalue := apart_tokens (resumes_moreMembers hclose members) value
      have hcolon : Apart (.colon :: _) := hvalue.cons fun _ => nofun
      have hkey : Apart (.string key :: .colon :: _) := hcolon.cons fun _ => nofun
      have hopen : Apart (.openObject :: _) := hkey.cons fun _ => nofun
      simpa [Outline.tokens] using hopen

/-- Behind an item come a comma or the end of the list, and they need no gap. -/
theorem resumes_moreItems {rest : List Token} (h : Resumes rest) :
    ∀ items : List Outline, Resumes (moreItems items ++ rest)
  | [] => h
  | item :: items => by
      have hitem := apart_tokens (resumes_moreItems h items) item
      have hcomma : Resumes (.comma :: _) := .cons hitem rfl
      simpa [moreItems] using hcomma

/-- Behind a member come a comma or the end of the object, and they need no gap. -/
theorem resumes_moreMembers {rest : List Token} (h : Resumes rest) :
    ∀ members : List Member, Resumes (moreMembers members ++ rest)
  | [] => h
  | (key, value) :: members => by
      have hvalue := apart_tokens (resumes_moreMembers h members) value
      have hcolon : Apart (.colon :: _) := hvalue.cons fun _ => nofun
      have hkey : Apart (.string key :: .colon :: _) := hcolon.cons fun _ => nofun
      have hcomma : Resumes (.comma :: _) := .cons hkey rfl
      simpa [moreMembers] using hcomma

end

/-- No two numbers meet in the tokens of a text. -/
theorem Outline.apart_tokens (outline : Outline) : Apart outline.tokens := by
  have h := Json.apart_tokens ⟨.nil, nofun⟩ outline
  rwa [List.append_nil] at h

/-! ### Tokens fill the place of their value -/

/-- One token that the stage takes. -/
theorem run_cons {stage next : Stage} {token : Token} {rest : List Token}
    (h : stage.step token = .ok next) : stage.run (token :: rest) = next.run rest := by
  rw [Stage.run, h]

/-- An array goes on with its first item as with any other. -/
theorem run_firstItem (outer : Spot) {value : Outline} (h : value.Whole) (rest : List Token) :
    (Stage.firstItem outer).run (value.tokens ++ rest)
      = (Stage.value (.item [] outer)).run (value.tokens ++ rest) := by
  cases h with
  | @array items _ => cases items <;> rfl
  | @object members _ => cases members <;> rfl
  | _ => rfl

mutual

/-- The tokens of an outline fill a spot with it. -/
theorem run_tokens (spot : Spot) (rest : List Token) : ∀ outline : Outline, outline.Whole →
    (Stage.value spot).run (outline.tokens ++ rest) = (spot.fill outline).run rest
  | .cut, h => by cases h
  | .null, _ => rfl
  | .boolean _, _ => rfl
  | .number _, _ => rfl
  | .string _, _ => rfl
  | .array [] closed, h => by
      obtain ⟨rfl, -⟩ := Outline.whole_array_iff.mp h
      rfl
  | .array (item :: items) closed, h => by
      obtain ⟨rfl, each⟩ := Outline.whole_array_iff.mp h
      obtain ⟨hitem, hitems⟩ := List.forall_mem_cons.mp each
      rw [Outline.tokens, List.append_assoc, List.append_assoc, List.cons_append, run_cons rfl,
        run_firstItem _ hitem, run_tokens _ _ item hitem]
      exact run_moreItems [item] spot rest items hitems
  | .object [] closed, h => by
      obtain ⟨rfl, -⟩ := Outline.whole_object_iff.mp h
      rfl
  | .object ((key, value) :: members) closed, h => by
      obtain ⟨rfl, each⟩ := Outline.whole_object_iff.mp h
      obtain ⟨hvalue, hmembers⟩ := List.forall_mem_cons.mp each
      rw [Outline.tokens, List.append_assoc, List.append_assoc, List.cons_append, List.cons_append,
        List.cons_append, run_cons rfl, run_cons rfl, run_cons rfl, run_tokens _ _ value hvalue]
      exact run_moreMembers [(key, value)] spot rest members hmembers

/-- The tokens of the remaining items close the array. -/
theorem run_moreItems (before : List Outline) (outer : Spot) (rest : List Token) :
    ∀ items : List Outline, (∀ item ∈ items, item.Whole) →
      (Stage.afterItem before outer).run (moreItems items ++ ([.closeArray] ++ rest))
        = (outer.fill (.array (before.reverse ++ items) true)).run rest
  | [], _ => by
      rw [List.append_nil]
      exact run_cons rfl
  | item :: items, h => by
      obtain ⟨hitem, hitems⟩ := List.forall_mem_cons.mp h
      rw [moreItems, List.append_assoc, List.cons_append, run_cons rfl, run_tokens _ _ item hitem]
      have hmore := run_moreItems (item :: before) outer rest items hitems
      rw [List.reverse_cons, List.append_assoc] at hmore
      exact hmore

/-- The tokens of the remaining members close the object. -/
theorem run_moreMembers (before : List Member) (outer : Spot) (rest : List Token) :
    ∀ members : List Member, (∀ member ∈ members, member.2.Whole) →
      (Stage.afterMember before outer).run (moreMembers members ++ ([.closeObject] ++ rest))
        = (outer.fill (.object (before.reverse ++ members) true)).run rest
  | [], _ => by
      rw [List.append_nil]
      exact run_cons rfl
  | (key, value) :: members, h => by
      obtain ⟨hvalue, hmembers⟩ := List.forall_mem_cons.mp h
      rw [moreMembers, List.append_assoc, List.cons_append, List.cons_append, List.cons_append,
        run_cons rfl, run_cons rfl, run_cons rfl, run_tokens _ _ value hvalue]
      have hmore := run_moreMembers ((key, value) :: before) outer rest members hmembers
      rw [List.reverse_cons, List.append_assoc] at hmore
      exact hmore

end

/-! ### Nothing else does -/

section

variable {root : Outline}

/-- Tokens that are taken to the end of a text are taken one after the other. -/
theorem exists_of_run {stage : Stage} {tokens : List Token} (h : stage.run tokens = ⟨root, none⟩)
    (hopen : stage.atEnd ≠ none) : ∃ token rest next, tokens = token :: rest ∧
      stage.step token = .ok next ∧ next.run rest = ⟨root, none⟩ := by
  cases tokens with
  | nil => exact absurd (congrArg Draft.stop h) hopen
  | cons token rest =>
      rw [Stage.run] at h
      split at h
      · rename_i next hstep
        exact ⟨token, rest, next, rfl, hstep, h⟩
      · cases h

/-- Nothing is closed where a value should stand. -/
theorem step_closeArray_ne_ok (spot : Spot) (next : Stage) :
    (Stage.value spot).step .closeArray ≠ .ok next := by
  intro h
  cases spot with
  | item before outer => cases before <;> cases h
  | _ => cases h

/-- The tokens that a text goes on with where a value should stand begin with the tokens of
a value. -/
def TakesValue (root : Outline) (tokens : List Token) : Prop :=
  ∀ spot : Spot, (Stage.value spot).run tokens = ⟨root, none⟩ →
    ∃ outline rest, tokens = outline.tokens ++ rest ∧ outline.Whole ∧
      (spot.fill outline).run rest = ⟨root, none⟩

/-- Where an array goes on, they begin with the tokens of its remaining items. -/
def TakesItems (root : Outline) (tokens : List Token) : Prop :=
  ∀ (before : List Outline) (outer : Spot),
    (Stage.afterItem before outer).run tokens = ⟨root, none⟩ →
    ∃ items rest, tokens = moreItems items ++ .closeArray :: rest ∧ (∀ item ∈ items, item.Whole) ∧
      (outer.fill (.array (before.reverse ++ items) true)).run rest = ⟨root, none⟩

/-- Where an object goes on, they begin with the tokens of its remaining members. -/
def TakesMembers (root : Outline) (tokens : List Token) : Prop :=
  ∀ (before : List Member) (outer : Spot),
    (Stage.afterMember before outer).run tokens = ⟨root, none⟩ →
    ∃ members rest, tokens = moreMembers members ++ .closeObject :: rest ∧
      (∀ member ∈ members, member.2.Whole) ∧
      (outer.fill (.object (before.reverse ++ members) true)).run rest = ⟨root, none⟩

/-- What shorter ends of a text begin with. -/
structure TakesWithin (root : Outline) (size : ℕ) : Prop where
  value : ∀ tokens : List Token, tokens.length < size → TakesValue root tokens
  items : ∀ tokens : List Token, tokens.length < size → TakesItems root tokens
  members : ∀ tokens : List Token, tokens.length < size → TakesMembers root tokens

variable {size : ℕ} (ih : TakesWithin root size)

include ih

/-- A bracket that opens is closed behind the items of a list, if the text is read to its
end. -/
theorem takesValue_array {spot : Spot} {tokens : List Token} (hsize : tokens.length < size)
    (h : (Stage.firstItem spot).run tokens = ⟨root, none⟩) :
    ∃ outline rest, .openArray :: tokens = outline.tokens ++ rest ∧ outline.Whole ∧
      (spot.fill outline).run rest = ⟨root, none⟩ := by
  obtain ⟨token, rest, next, rfl, hstep, hrun⟩ := exists_of_run h nofun
  by_cases hclose : token = .closeArray
  · subst hclose
    cases hstep
    exact ⟨.array [] true, rest, rfl, .array (by simp), hrun⟩
  · have hvalue : (Stage.value (.item [] spot)).run (token :: rest) = ⟨root, none⟩ := by
      have hsame : (Stage.value (.item [] spot)).step token = .ok next := by
        rw [← hstep]
        cases token <;> first | rfl | exact absurd rfl hclose
      rw [run_cons hsame, hrun]
    obtain ⟨item, more, htokens, hitem, hmore⟩ := ih.value _ hsize _ hvalue
    have hshort : more.length < size := by
      have hlengths := congrArg List.length htokens
      rw [List.length_append] at hlengths
      omega
    obtain ⟨items, last, rfl, hitems, hlast⟩ := ih.items _ hshort _ _ hmore
    refine ⟨.array (item :: items) true, last, ?_, .array ?_, hlast⟩
    · rw [htokens]
      simp [Outline.tokens]
    · exact List.forall_mem_cons.mpr ⟨hitem, hitems⟩

/-- Behind a key stand a colon, a value and the members that are left. -/
theorem takesMember {before : List Member} {key : Option String} {outer : Spot}
    {tokens : List Token} (hsize : tokens.length < size)
    (h : (Stage.colon before key outer).run tokens = ⟨root, none⟩) :
    ∃ value members rest,
      tokens = .colon :: value.tokens ++ (moreMembers members ++ .closeObject :: rest) ∧
      value.Whole ∧ (∀ member ∈ members, member.2.Whole) ∧
      (outer.fill (.object (((key, value) :: before).reverse ++ members) true)).run rest
        = ⟨root, none⟩ := by
  obtain ⟨token, rest, next, rfl, hstep, hrun⟩ := exists_of_run h nofun
  have hcolon : token = .colon ∧ next = .value (.member before key outer) := by
    cases token <;> cases hstep
    exact ⟨rfl, rfl⟩
  obtain ⟨rfl, rfl⟩ := hcolon
  rw [List.length_cons] at hsize
  obtain ⟨value, more, rfl, hvalue, hmore⟩ := ih.value _ (by omega) _ hrun
  rw [List.length_append] at hsize
  obtain ⟨members, last, rfl, hmembers, hlast⟩ := ih.members _ (by omega) _ _ hmore
  exact ⟨value, members, last, rfl, hvalue, hmembers, hlast⟩

/-- A brace that opens is closed behind the members of an object, if the text is read to its
end. -/
theorem takesValue_object {spot : Spot} {tokens : List Token} (hsize : tokens.length < size)
    (h : (Stage.firstKey spot).run tokens = ⟨root, none⟩) :
    ∃ outline rest, .openObject :: tokens = outline.tokens ++ rest ∧ outline.Whole ∧
      (spot.fill outline).run rest = ⟨root, none⟩ := by
  obtain ⟨token, rest, next, rfl, hstep, hrun⟩ := exists_of_run h nofun
  rw [List.length_cons] at hsize
  cases token with
  | closeObject =>
      cases hstep
      exact ⟨.object [] true, rest, rfl, .object (by simp), hrun⟩
  | string key =>
      cases hstep
      obtain ⟨value, members, last, rfl, hvalue, hmembers, hlast⟩ :=
        takesMember ih (by omega) hrun
      refine ⟨.object ((key, value) :: members) true, last, ?_, .object ?_, hlast⟩
      · simp [Outline.tokens]
      · exact List.forall_mem_cons.mpr ⟨hvalue, hmembers⟩
  | _ => cases hstep

/-- Where a value is awaited, the tokens begin with one, if shorter texts are read as they
should be. -/
theorem takesValue_step {tokens : List Token} (hsize : tokens.length < size + 1) :
    TakesValue root tokens := by
  intro spot h
  obtain ⟨token, rest, next, rfl, hstep, hrun⟩ := exists_of_run h nofun
  rw [List.length_cons] at hsize
  cases token with
  | openArray =>
      cases hstep
      exact takesValue_array ih (by omega) hrun
  | openObject =>
      cases hstep
      exact takesValue_object ih (by omega) hrun
  | null =>
      cases hstep
      exact ⟨.null, rest, rfl, .null, hrun⟩
  | boolean value =>
      cases hstep
      exact ⟨.boolean value, rest, rfl, .boolean value, hrun⟩
  | number numeral =>
      cases hstep
      exact ⟨.number numeral, rest, rfl, .number numeral, hrun⟩
  | string text =>
      cases hstep
      exact ⟨.string text, rest, rfl, .string text, hrun⟩
  | closeArray => exact absurd hstep (step_closeArray_ne_ok spot next)
  | _ => cases hstep

/-- Where the next item of a list is awaited, the tokens begin with the items that are
left. -/
theorem takesItems_step {tokens : List Token} (hsize : tokens.length < size + 1) :
    TakesItems root tokens := by
  intro before outer h
  obtain ⟨token, rest, next, rfl, hstep, hrun⟩ := exists_of_run h nofun
  rw [List.length_cons] at hsize
  cases token with
  | closeArray =>
      cases hstep
      rw [← List.append_nil before.reverse] at hrun
      exact ⟨[], rest, rfl, by simp, hrun⟩
  | comma =>
      cases hstep
      obtain ⟨item, more, rfl, hitem, hmore⟩ := ih.value _ (by omega) _ hrun
      rw [List.length_append] at hsize
      obtain ⟨items, last, rfl, hitems, hlast⟩ := ih.items _ (by omega) _ _ hmore
      refine ⟨item :: items, last, by simp [moreItems],
        List.forall_mem_cons.mpr ⟨hitem, hitems⟩, ?_⟩
      rwa [List.reverse_cons, List.append_assoc] at hlast
  | _ => cases hstep

/-- Where the next member of an object is awaited, the tokens begin with the members that are
left. -/
theorem takesMembers_step {tokens : List Token} (hsize : tokens.length < size + 1) :
    TakesMembers root tokens := by
  intro before outer h
  obtain ⟨token, rest, next, rfl, hstep, hrun⟩ := exists_of_run h nofun
  rw [List.length_cons] at hsize
  cases token with
  | closeObject =>
      cases hstep
      rw [← List.append_nil before.reverse] at hrun
      exact ⟨[], rest, rfl, by simp, hrun⟩
  | comma =>
      cases hstep
      obtain ⟨token, rest, next, rfl, hstep, hrun⟩ := exists_of_run hrun nofun
      rw [List.length_cons] at hsize
      cases token with
      | string key =>
          cases hstep
          obtain ⟨value, members, last, rfl, hvalue, hmembers, hlast⟩ :=
            takesMember ih (by omega) hrun
          refine ⟨(key, value) :: members, last, by simp [moreMembers],
            List.forall_mem_cons.mpr ⟨hvalue, hmembers⟩, ?_⟩
          rwa [List.reverse_cons, List.append_assoc] at hlast
      | _ => cases hstep
  | _ => cases hstep

omit ih

/-- Induction on the tokens that are left: each step takes at least one. -/
theorem takesWithin (root : Outline) (size : ℕ) : TakesWithin root size := by
  induction size with
  | zero => exact ⟨nofun, nofun, nofun⟩
  | succ size ih =>
      exact ⟨fun _ => takesValue_step ih, fun _ => takesItems_step ih,
        fun _ => takesMembers_step ih⟩

/-- A text with nothing wrong in it holds the tokens of its outline. -/
theorem eq_tokens_of_run {tokens : List Token}
    (h : (Stage.value .root).run tokens = ⟨root, none⟩) : tokens = root.tokens ∧ root.Whole := by
  obtain ⟨outline, rest, rfl, hwhole, hdone⟩ :=
    (takesWithin root (tokens.length + 1)).value tokens (Nat.lt_succ_self _) .root h
  cases rest with
  | nil =>
      cases hdone
      exact ⟨List.append_nil _, hwhole⟩
  | cons token rest => cases hdone

end

/-! ## The texts of an outline -/

/-- A token that is accepted is not one behind which nothing is read. -/
theorem isLast_of_step {stage next : Stage} {token : Token} (h : stage.step token = .ok next) :
    token.isLast = false := by
  cases token with
  | stray => cases stage <;> cases h
  | broken cause inString => cases stage <;> cases h
  | _ => rfl

/-- Only tokens behind which something may be read are taken. -/
theorem isLast_of_run {root : Outline} {stage : Stage} {tokens : List Token}
    (h : stage.run tokens = ⟨root, none⟩) : ∀ token ∈ tokens, token.isLast = false := by
  induction tokens generalizing stage with
  | nil => simp
  | cons token rest ih =>
      rw [Stage.run] at h
      split at h
      · rename_i next hstep
        exact List.forall_mem_cons.mpr ⟨isLast_of_step hstep, ih h⟩
      · cases h

/-- A well-formed outline and one of its texts: a word for each token, and blanks wherever
one likes. -/
structure Outline.SpelledBy (outline : Outline) (text : String) : Prop where
  whole : outline.Whole
  spells : Spells outline.tokens text.toList

/-- The texts of an outline are those that have it, with nothing wrong in them. -/
theorem outline_eq_iff {text : String} {root : Outline} :
    outline text = ⟨root, none⟩ ↔ root.SpelledBy text := by
  constructor
  · intro h
    obtain ⟨htokens, hwhole⟩ := eq_tokens_of_run h
    exact ⟨hwhole, htokens ▸ spells_tokens (isLast_of_run h)⟩
  · intro h
    have hrun := run_tokens .root [] root h.whole
    rw [List.append_nil] at hrun
    rw [outline, tokens_of_spells h.spells root.apart_tokens, hrun]
    rfl

/-- Reading a text is reading its outline. -/
theorem parse_of_spelledBy {β : Type} (read : Reader β) {text : String} {root : Outline}
    (h : root.SpelledBy text) : parse read text = read ⟨deepest, .expectedValue⟩ root := by
  rw [parse, outline_eq_iff.mpr h]
  simp only [Option.getD_none, Option.isSome_none, Bool.false_eq_true, ↓reduceIte]
  exact bind_pure _

/-- A text that is read has an outline, with nothing wrong in it. -/
theorem exists_spelledBy_of_parse {β : Type} {read : Reader β} {text : String} {b : β}
    (h : parse read text = .ok b) : ∃ root : Outline, root.SpelledBy text := by
  obtain ⟨value, -, h⟩ := exists_of_bind_eq_ok h
  refine ⟨(outline text).root, outline_eq_iff.mp ?_⟩
  cases hstop : (outline text).stop with
  | none => rw [← hstop]
  | some stop =>
      rw [hstop] at h
      cases h

end Json

end Montage
