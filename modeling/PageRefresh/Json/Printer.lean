import PageRefresh.Json.Value

/-!
Printing JSON with two spaces of indentation.

Every item of an array and every member of an object has a line of its own, and an empty array or
object none. In strings the quote, the backslash and the characters below U+0020 are escaped, the
last with their short escape if they have one; all else stands for itself. So a text's own line
feeds never break a line.
-/

namespace PageRefresh.Json

/-- The hexadecimal digit of a number below 16. -/
def hexDigit (n : Nat) : Char :=
  if n < 10 then Char.ofNat ('0'.toNat + n) else Char.ofNat ('a'.toNat + (n - 10))

def escape (c : Char) : List Char :=
  match c with
  | '"' => ['\\', '"']
  | '\\' => ['\\', '\\']
  | '\x08' => ['\\', 'b']
  | '\x0c' => ['\\', 'f']
  | '\n' => ['\\', 'n']
  | '\r' => ['\\', 'r']
  | '\t' => ['\\', 't']
  | c =>
      if c.toNat < 0x20 then ['\\', 'u', '0', '0', hexDigit (c.toNat / 16), hexDigit (c.toNat % 16)]
      else [c]

/-- A string as it is written. One that denotes no text is written as half a surrogate pair. -/
def quote : Option String → List Char
  | some text => '"' :: text.toList.flatMap escape ++ ['"']
  | none => ['"', '\\', 'u', 'd', '8', '0', '0', '"']

/-- A line feed and the indentation of this depth. -/
def newLine (depth : Nat) : List Char :=
  '\n' :: List.replicate (2 * depth) ' '

mutual

/-- A value as it is written at a depth of nesting. -/
def printAt (depth : Nat) : Json → List Char
  | .null => ['n', 'u', 'l', 'l']
  | .bool true => ['t', 'r', 'u', 'e']
  | .bool false => ['f', 'a', 'l', 's', 'e']
  | .nat n => (Nat.repr n).toList
  | .number written => written.toList
  | .string text => quote text
  | .array [] => ['[', ']']
  | .array (item :: items) =>
      '[' :: newLine (depth + 1) ++ printAt (depth + 1) item ++ printItems (depth + 1) items ++
        newLine depth ++ [']']
  | .object [] => ['\x7b', '\x7d']
  | .object ((name, value) :: members) =>
      '\x7b' :: newLine (depth + 1) ++ quote name ++ ':' :: ' ' :: printAt (depth + 1) value ++
        printMembers (depth + 1) members ++ newLine depth ++ ['\x7d']

/-- The items after the first. -/
def printItems (depth : Nat) : List Json → List Char
  | [] => []
  | item :: items => ',' :: newLine depth ++ printAt depth item ++ printItems depth items

/-- The members after the first. -/
def printMembers (depth : Nat) : List (Option String × Json) → List Char
  | [] => []
  | (name, value) :: members =>
      ',' :: newLine depth ++ quote name ++ ':' :: ' ' :: printAt depth value ++
        printMembers depth members

end

/-- A value as a text of its own. -/
def print (j : Json) : String :=
  String.ofList (j.printAt 0)

end PageRefresh.Json
