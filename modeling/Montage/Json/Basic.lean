/-!
# JSON values

A JSON value over a type of real numbers.  Whole numbers stand apart from real
ones because a reader of the text sees the difference: `4` and `4.0` are two
texts.  The members of an object keep their order.
-/

namespace Montage

/-- A JSON value whose real numbers are of type `α`. -/
inductive Json (α : Type) where
  | null
  | bool (value : Bool)
  | int (value : Int)
  | real (value : α)
  | str (value : String)
  | arr (items : List (Json α))
  | obj (members : List (String × Json α))

namespace Json

variable {α : Type}

/-- A whole number that is not negative. -/
def nat (n : Nat) : Json α := .int n

/-- `null` where there is nothing. -/
def ofOption {β : Type} (write : β → Json α) : Option β → Json α
  | none => .null
  | some b => write b

/-- The members that are present; an absent one leaves no trace. -/
def present (members : List (String × Option (Json α))) : Json α :=
  .obj (members.filterMap fun (key, value) => value.map fun v => (key, v))

/-- A member put into members sorted by key.  It takes the place of a member
with the same key. -/
def insertSorted (key : String) (value : Json α) :
    List (String × Json α) → List (String × Json α)
  | [] => [(key, value)]
  | (k, v) :: rest =>
    if key < k then (key, value) :: (k, v) :: rest
    else if key = k then (key, value) :: rest
    else (k, v) :: insertSorted key value rest

end Json

end Montage
