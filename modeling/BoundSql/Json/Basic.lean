/-!
# JSON values

The values of the descriptions that expressions, catalogs and queries are read from and written to.
Whole numbers and floats are kept apart.
-/

namespace BoundSql

/-- A JSON value. -/
inductive Json where
  | null
  | boolean (b : Bool)
  | integer (n : Int)
  | float (x : Float)
  | string (s : String)
  | array (items : List Json)
  /-- The members of an object as they are written; a name may stand there twice. -/
  | object (members : List (String × Json))
  /-- Well-formed text without a value: a number or a nesting beyond the limits, or half of a
  surrogate pair. It can stand only where nothing is read. -/
  | unusable
deriving Inhabited

namespace Json

mutual

/-- The number of arrays and objects around the innermost value. -/
def height : Json → Nat
  | .array items => heightItems items + 1
  | .object members => heightMembers members + 1
  | _ => 0

/-- The greatest height in a list. -/
def heightItems : List Json → Nat
  | [] => 0
  | j :: rest => max j.height (heightItems rest)

/-- The greatest height among members. -/
def heightMembers : List (String × Json) → Nat
  | [] => 0
  | (_, j) :: rest => max j.height (heightMembers rest)

end

end Json

end BoundSql
