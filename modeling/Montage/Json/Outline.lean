import Montage.Json.Token

/-!
# The outline of a JSON text

The outline of a text is the tree of its values as far as it is well-formed.
Where the text becomes malformed the tree is cut: the containers that are open
there stay open, and a member whose value is missing ends in `Outline.cut`.
There is at most one such place, and it is the end of the tree, so whoever goes
through an outline in the order of the text meets every value that stands
before the fault, and then the fault.

`outline` builds it in one pass over the tokens.  A `Stage` holds what has been
read so far and says what may come next; `Stage.step` takes one token.
-/

namespace Montage

namespace Json

/-- The values of a text in place.  `closed` tells whether a container reaches
its closing bracket. -/
inductive Outline where
  /-- The text is malformed where a value should stand. -/
  | cut
  | null
  | boolean (value : Bool)
  | number (numeral : Numeral)
  | string (text : Option String)
  | array (items : List Outline) (closed : Bool)
  | object (members : List (Option String × Outline)) (closed : Bool)

/-- Whether the text is well-formed up to the end of the value. -/
def Outline.complete : Outline → Bool
  | .cut => false
  | .array _ closed => closed
  | .object _ closed => closed
  | _ => true

/-- A member of an object; a key that holds half of a surrogate pair has no
text. -/
abbrev Member := Option String × Outline

/-- What is wrong with a token in the place of a key. -/
def keyFault : Token → Malformed
  | .broken cause true => cause
  | _ => .keyMustBeString

/-- Where a value stands: alone, or behind earlier items or members of the
containers around it.  Lists of what came before run backwards. -/
inductive Spot
  | root
  | item (before : List Outline) (outer : Spot)
  | member (before : List Member) (key : Option String) (outer : Spot)

/-- What has been read, and what may come next. -/
inductive Stage
  /-- A value. -/
  | value (spot : Spot)
  /-- The first item of an array, or its end. -/
  | firstItem (outer : Spot)
  /-- A comma, or the end of an array. -/
  | afterItem (items : List Outline) (outer : Spot)
  /-- The first key of an object, or its end. -/
  | firstKey (outer : Spot)
  /-- A key. -/
  | nextKey (members : List Member) (outer : Spot)
  /-- The colon behind a key. -/
  | colon (members : List Member) (key : Option String) (outer : Spot)
  /-- A comma, or the end of an object. -/
  | afterMember (members : List Member) (outer : Spot)
  /-- Nothing. -/
  | done (root : Outline)

/-- The stage after a complete value. -/
def Spot.fill (value : Outline) : Spot → Stage
  | .root => .done value
  | .item before outer => .afterItem (value :: before) outer
  | .member before key outer => .afterMember ((key, value) :: before) outer

/-- The outline of a text that breaks off, with `value` in its last place. -/
def Spot.cutOff (value : Outline) : Spot → Outline
  | .root => value
  | .item before outer => outer.cutOff (.array (value :: before).reverse false)
  | .member before key outer => outer.cutOff (.object ((key, value) :: before).reverse false)

/-- A value that begins with a token. -/
def Spot.begin (spot : Spot) : Token → Except Malformed Stage
  | .openArray => .ok (.firstItem spot)
  | .openObject => .ok (.firstKey spot)
  | .null => .ok (spot.fill .null)
  | .boolean value => .ok (spot.fill (.boolean value))
  | .number numeral => .ok (spot.fill (.number numeral))
  | .string text => .ok (spot.fill (.string text))
  | .broken cause _ => .error cause
  | .closeArray =>
    match spot with
    | .item (_ :: _) _ => .error .trailingComma
    | _ => .error .expectedValue
  | _ => .error .expectedValue

/-- The stage after one more token. -/
def Stage.step : Stage → Token → Except Malformed Stage
  | .value spot, token => spot.begin token
  | .firstItem outer, .closeArray => .ok (outer.fill (.array [] true))
  | .firstItem outer, token => (Spot.item [] outer).begin token
  | .afterItem items outer, .comma => .ok (.value (.item items outer))
  | .afterItem items outer, .closeArray => .ok (outer.fill (.array items.reverse true))
  | .afterItem _ _, _ => .error .expectedListCommaOrEnd
  | .firstKey outer, .closeObject => .ok (outer.fill (.object [] true))
  | .firstKey outer, .string key => .ok (.colon [] key outer)
  | .firstKey _, token => .error (keyFault token)
  | .nextKey members outer, .string key => .ok (.colon members key outer)
  | .nextKey _ _, .closeObject => .error .trailingComma
  | .nextKey _ _, token => .error (keyFault token)
  | .colon members key outer, .colon => .ok (.value (.member members key outer))
  | .colon _ _ _, _ => .error .expectedColon
  | .afterMember members outer, .comma => .ok (.nextKey members outer)
  | .afterMember members outer, .closeObject => .ok (outer.fill (.object members.reverse true))
  | .afterMember _ _, _ => .error .expectedObjectCommaOrEnd
  | .done _, _ => .error .trailingCharacters

/-- What is missing where the text ends. -/
def Stage.atEnd : Stage → Option Malformed
  | .value _ => some .endInValue
  | .firstItem _ => some .endInList
  | .afterItem _ _ => some .endInList
  | .firstKey _ => some .endInObject
  | .nextKey _ _ => some .endInValue
  | .colon _ _ _ => some .endInObject
  | .afterMember _ _ => some .endInObject
  | .done _ => none

/-- The outline of what has been read. -/
def Stage.cutOff : Stage → Outline
  | .value spot => spot.cutOff .cut
  | .firstItem outer => outer.cutOff (.array [] false)
  | .afterItem items outer => outer.cutOff (.array items.reverse false)
  | .firstKey outer => outer.cutOff (.object [] false)
  | .nextKey members outer => outer.cutOff (.object members.reverse false)
  | .colon members key outer => outer.cutOff (.object ((key, .cut) :: members).reverse false)
  | .afterMember members outer => outer.cutOff (.object members.reverse false)
  | .done root => root

/-- The outline of a text and what makes it malformed, if anything does. -/
structure Draft where
  root : Outline
  stop : Option Malformed

/-- The stages of the remaining tokens. -/
def Stage.run : Stage → List Token → Draft
  | stage, [] => ⟨stage.cutOff, stage.atEnd⟩
  | stage, token :: rest =>
    match stage.step token with
    | .ok next => next.run rest
    | .error cause => ⟨stage.cutOff, some cause⟩

/-- The outline of a text. -/
def outline (text : String) : Draft := (Stage.value .root).run (tokens text)

end Json

end Montage
