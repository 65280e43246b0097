/-!
The values of a TOML document, as they are written.

Strings are the texts they denote. A table written inside braces is still the list of its entries,
under dotted keys and perhaps in conflict with one another; `Toml.Document` makes tables of them.
-/

namespace PageRefresh.Toml

/-- A value that is no string and holds no others. Floats and dates are kept as they are written. -/
inductive Scalar where
  | integer (n : Int)
  | float (written : String)
  | boolean (b : Bool)
  | datetime (written : String)
deriving DecidableEq, Repr

/-- A key with dots: the tables to pass through, and the key itself. -/
structure Path where
  parents : List String
  last : String
deriving DecidableEq, Repr

/-- A value as it is written. -/
inductive Value where
  | string (s : String)
  | scalar (s : Scalar)
  | array (items : List Value)
  | inline (entries : List (Path × Value))

end PageRefresh.Toml
