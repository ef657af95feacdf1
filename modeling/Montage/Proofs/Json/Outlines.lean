import Montage.Proofs.Json.Grammar

/-!
# The outline of a written value

The text of a value is well-formed, and its outline is that of the value itself
(`outline_render`).  So reading the text is reading the outline of the value, in any
spacing (`parse_render`).
-/

namespace Montage

namespace Json

mutual

/-- The outline of a value. -/
def outlineOf : Json Float → Outline
  | .null => .null
  | .bool value => .boolean value
  | .int i => .number (intNumeral i)
  | .real x => match Binary64.ofFloat? x with
    | some p => .number (realNumeral p)
    | none => .null
  | .str s => .string (some s)
  | .arr items => .array (itemOutlines items) true
  | .obj members => .object (memberOutlines members) true

/-- The outlines of items. -/
def itemOutlines : List (Json Float) → List Outline
  | [] => []
  | item :: items => outlineOf item :: itemOutlines items

/-- The outlines of members. -/
def memberOutlines : List (String × Json Float) → List Member
  | [] => []
  | (key, value) :: members => (some key, outlineOf value) :: memberOutlines members

end

/-- The outlines of members stand behind their keys in the same order. -/
theorem memberOutlines_eq_map (members : List (String × Json Float)) :
    memberOutlines members = members.map fun (key, value) => (some key, outlineOf value) := by
  induction members with
  | nil => rfl
  | cons member members ih => rw [memberOutlines, ih, List.map_cons]

mutual

/-- The tokens of the outline of a value are those of the value. -/
theorem tokens_outlineOf : ∀ value : Json Float, (outlineOf value).tokens = tokensOf value
  | .null => rfl
  | .bool _ => rfl
  | .int _ => rfl
  | .real x => by
      rw [outlineOf, tokensOf]
      cases Binary64.ofFloat? x <;> rfl
  | .str _ => rfl
  | .arr [] => rfl
  | .arr (item :: items) => by
      rw [outlineOf, itemOutlines, Outline.tokens, tokens_outlineOf item,
        moreItems_itemOutlines items, tokensOf]
  | .obj [] => rfl
  | .obj ((key, value) :: members) => by
      rw [outlineOf, memberOutlines, Outline.tokens, tokens_outlineOf value,
        moreMembers_memberOutlines members, tokensOf]

/-- So it is for the items of a list behind a comma. -/
theorem moreItems_itemOutlines : ∀ items : List (Json Float),
    moreItems (itemOutlines items) = itemTokens items
  | [] => rfl
  | item :: items => by
      rw [itemOutlines, moreItems, tokens_outlineOf item, moreItems_itemOutlines items, itemTokens]

/-- And for the members of an object behind a comma. -/
theorem moreMembers_memberOutlines : ∀ members : List (String × Json Float),
    moreMembers (memberOutlines members) = memberTokens members
  | [] => rfl
  | (key, value) :: members => by
      rw [memberOutlines, moreMembers, tokens_outlineOf value, moreMembers_memberOutlines members,
        memberTokens]

end

mutual

/-- Nothing is cut off in the outline of a value. -/
theorem whole_outlineOf : ∀ value : Json Float, (outlineOf value).Whole
  | .null => .null
  | .bool value => .boolean value
  | .int _ => .number _
  | .real x => by
      rw [outlineOf]
      cases Binary64.ofFloat? x with
      | none => exact .null
      | some p => exact .number _
  | .str s => .string (some s)
  | .arr items => .array (whole_itemOutlines items)
  | .obj members => .object (whole_memberOutlines members)

/-- Nor in the items of a list. -/
theorem whole_itemOutlines : ∀ items : List (Json Float), ∀ item ∈ itemOutlines items, item.Whole
  | [] => by simp [itemOutlines]
  | item :: items =>
      List.forall_mem_cons.mpr ⟨whole_outlineOf item, whole_itemOutlines items⟩

/-- Nor in the members of an object. -/
theorem whole_memberOutlines : ∀ members : List (String × Json Float),
    ∀ member ∈ memberOutlines members, member.2.Whole
  | [] => by simp [memberOutlines]
  | (_, value) :: members =>
      List.forall_mem_cons.mpr ⟨whole_outlineOf value, whole_memberOutlines members⟩

end

variable {spacing : Spacing} (hspacing : spacing.Blank)

include hspacing

/-- The text of a value is well-formed and has its outline. -/
theorem outline_render (value : Json Float) :
    outline (value.render spacing) = ⟨outlineOf value, none⟩ := by
  have hrun := run_tokens .root [] _ (whole_outlineOf value)
  rw [List.append_nil, tokens_outlineOf] at hrun
  rw [outline, tokens_render hspacing, hrun]
  rfl

/-- Reading the text of a value is reading its outline. -/
theorem parse_render {β : Type} (read : Reader β) (value : Json Float) :
    parse read (value.render spacing) = read ⟨deepest, .expectedValue⟩ (outlineOf value) :=
  parse_of_spelledBy read (outline_eq_iff.mp (outline_render hspacing value))

end Json

end Montage
