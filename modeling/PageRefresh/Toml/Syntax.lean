import PageRefresh.Toml.Quoted
import PageRefresh.Toml.Scalar

/-!
The text of a TOML document as a list of statements.

A statement is a line that opens a table, a line that opens another table of an array, or an entry.
What the statements make together, and whether they agree, is for `Toml.Document`.
-/

namespace PageRefresh.Toml

/-- What a line says. -/
inductive Statement where
  /-- `[a.b]`: the entries that follow are of this table. -/
  | table (path : Path)
  /-- `[[a.b]]`: the entries that follow are of a new table at the end of this array. -/
  | tableItem (path : Path)
  | entry (path : Path) (value : Value)

/-- How many parts a dotted key may not have, and how deep values may not be nested. -/
def depthLimit : Nat := 80

def isBlank (c : Char) : Bool :=
  c == ' ' || c == '\t'

def skipBlanks (cs : List Char) : List Char :=
  cs.dropWhile isBlank

/-- What follows blanks and a comment, if there is one. -/
def skipComment (cs : List Char) : List Char :=
  match skipBlanks cs with
  | '#' :: cs => cs.dropWhile isTextChar
  | cs => cs

/-- What follows the line break at the front; the end of the text ends a line as well. -/
def lineBreak? : List Char → Option (List Char)
  | [] => some []
  | '\n' :: cs => some cs
  | '\r' :: '\n' :: cs => some cs
  | _ => none

/-- What follows the end of a line, before which there may be blanks and a comment. -/
def lineEnd? (cs : List Char) : Option (List Char) :=
  lineBreak? (skipComment cs)

/-- Drop blanks, line breaks and comments; `comment` says whether the text begins inside one. -/
def skipLines (comment : Bool) : List Char → List Char
  | [] => []
  | c :: cs =>
      if c = '\n' then skipLines false cs
      else if c = '\r' then
        match cs with
        | '\n' :: rest => skipLines false rest
        | _ => c :: cs
      else if comment then if isTextChar c then skipLines true cs else c :: cs
      else if isBlank c then skipLines false cs
      else if c = '#' then skipLines true cs
      else c :: cs

/-- Whether a character may stand in a key without quotes. -/
def isBareKeyChar (c : Char) : Bool :=
  c.isAlphanum || c == '-' || c == '_'

/-- Read one part of a key. -/
def readKeyPart (cs : List Char) : Option (String × List Char) :=
  match cs.takeWhile isBareKeyChar with
  | [] => (readQuoted cs).map fun (key, rest) => (String.ofList key, rest)
  | key => some (String.ofList key, cs.dropWhile isBareKeyChar)

/-- Read the parts of a key, of which there may be no more than `limit`. -/
def readKeyParts : Nat → List Char → Option (Path × List Char)
  | 0, _ => none
  | limit + 1, cs =>
      match readKeyPart (skipBlanks cs) with
      | none => none
      | some (key, cs) =>
          match skipBlanks cs with
          | '.' :: cs =>
              (readKeyParts limit cs).map fun (path, rest) =>
                (⟨key :: path.parents, path.last⟩, rest)
          | rest => some (⟨[], key⟩, rest)

/-- Read a key with the blanks around it. -/
def readKey (cs : List Char) : Option (Path × List Char) :=
  readKeyParts (depthLimit - 1) cs

mutual

/-- Read a value. It may be nested less than `depth` deep; `fuel` bounds how many values are read
one inside or after the other. -/
def readValue (depth : Nat) : Nat → List Char → Option (Value × List Char)
  | 0, _ => none
  | fuel + 1, cs =>
      match cs with
      | '[' :: cs =>
          if depth ≤ 1 then none
          else
            match skipLines false cs with
            | ']' :: rest => some (.array [], rest)
            | cs => (readItems (depth - 1) fuel cs).map fun (items, rest) => (.array items, rest)
      | '\x7b' :: cs =>
          if depth ≤ 1 then none
          else
            match skipBlanks cs with
            | '\x7d' :: rest => some (.inline [], rest)
            | cs => (readEntries (depth - 1) fuel cs).map fun (entries, rest) =>
                (.inline entries, rest)
      | c :: cs =>
          if c = '"' ∨ c = apostrophe then
            (readString (c :: cs)).map fun (s, rest) => (.string (String.ofList s), rest)
          else (Scalar.read (c :: cs)).map fun (s, rest) => (.scalar s, rest)
      | [] => none

/-- Read the items of an array up to its bracket. The last one may have a comma after it. -/
def readItems (depth : Nat) : Nat → List Char → Option (List Value × List Char)
  | 0, _ => none
  | fuel + 1, cs =>
      match readValue depth fuel cs with
      | none => none
      | some (item, cs) =>
          match skipLines false cs with
          | ']' :: rest => some ([item], rest)
          | ',' :: cs =>
              match skipLines false cs with
              | ']' :: rest => some ([item], rest)
              | cs => (readItems depth fuel cs).map fun (items, rest) => (item :: items, rest)
          | _ => none

/-- Read the entries of a table in braces up to its brace. -/
def readEntries (depth : Nat) : Nat → List Char → Option (List (Path × Value) × List Char)
  | 0, _ => none
  | fuel + 1, cs =>
      match readKey cs with
      | some (path, '=' :: cs) =>
          match readValue depth fuel (skipBlanks cs) with
          | none => none
          | some (value, cs) =>
              match skipBlanks cs with
              | '\x7d' :: rest => some ([(path, value)], rest)
              | ',' :: cs =>
                  (readEntries depth fuel cs).map fun (entries, rest) =>
                    ((path, value) :: entries, rest)
              | _ => none
      | _ => none

end

def readEntry (cs : List Char) : Option (Statement × List Char) :=
  match readKey cs with
  | some (path, '=' :: cs) =>
      match readValue depthLimit (2 * cs.length + 2) (skipBlanks cs) with
      | some (value, cs) => (lineEnd? cs).map fun rest => (.entry path value, rest)
      | none => none
  | _ => none

/-- Read the line that opens a table, after its first bracket. -/
def readHeader (cs : List Char) : Option (Statement × List Char) :=
  match cs with
  | '[' :: cs =>
      match readKey cs with
      | some (path, ']' :: ']' :: cs) => (lineEnd? cs).map fun rest => (.tableItem path, rest)
      | _ => none
  | cs =>
      match readKey cs with
      | some (path, ']' :: cs) => (lineEnd? cs).map fun rest => (.table path, rest)
      | _ => none

/-- Read a line. It may say nothing. -/
def readLine (cs : List Char) : Option (Option Statement × List Char) :=
  match skipBlanks cs with
  | '[' :: cs => (readHeader cs).map fun (s, rest) => (some s, rest)
  | c :: cs =>
      if c = '#' ∨ c = '\n' ∨ c = '\r' then (lineEnd? (c :: cs)).map (none, ·)
      else (readEntry (c :: cs)).map fun (s, rest) => (some s, rest)
  | [] => some (none, [])

/-- Read lines to the end of the text, of which there may be no more than `limit`. -/
def readLinesOf : Nat → List Char → Option (List Statement)
  | _, [] => some []
  | 0, _ => none
  | limit + 1, cs =>
      match readLine cs with
      | none => none
      | some (statement, rest) => (readLinesOf limit rest).map (statement.toList ++ ·)

/-- A text without the byte order mark that it may begin with. -/
def dropByteOrderMark : List Char → List Char
  | '\ufeff' :: cs => cs
  | cs => cs

def readStatements (cs : List Char) : Option (List Statement) :=
  let cs := dropByteOrderMark cs
  readLinesOf (cs.length + 1) cs

end PageRefresh.Toml
