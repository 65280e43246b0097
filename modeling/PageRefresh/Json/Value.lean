/-!
JSON values.

A string is the text it denotes. JSON can also spell strings that denote no text, because half of a
surrogate pair is missing; such a string, or name of a member, is `none`. An integer written
without sign, fraction and exponent is its value, of any size; every other number is kept as it is
written.
-/

namespace PageRefresh

inductive Json where
  | null
  | bool (b : Bool)
  | nat (n : Nat)
  | number (written : String)
  | string (text : Option String)
  | array (items : List Json)
  /-- Members in the order they are written; a name may occur more than once. -/
  | object (members : List (Option String × Json))

namespace Json

/-- A string that denotes a text. -/
def text (s : String) : Json :=
  .string (some s)

/-- An object whose members have these names. -/
def ofMembers (members : List (String × Json)) : Json :=
  .object (members.map fun (name, value) => (some name, value))

end Json

end PageRefresh
