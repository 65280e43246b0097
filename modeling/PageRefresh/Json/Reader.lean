import PageRefresh.Json.Value
import PageRefresh.Text.Digit

/-!
Reading JSON.

The grammar is the strict one: no comments, no trailing commas, no leading zeros, and no control
characters in strings. Numbers may have any size, and values any depth.
-/

namespace PageRefresh.Json

open PageRefresh.Text (digitValue? numeral)

/-- The white space that may stand between tokens. -/
def isSpace (c : Char) : Bool :=
  c == ' ' || c == '\n' || c == '\t' || c == '\r'

def skipSpace (cs : List Char) : List Char :=
  cs.dropWhile isSpace

/-- The value of four hexadecimal digits. -/
def hexUnit? (a b c d : Char) : Option Nat :=
  match digitValue? a, digitValue? b, digitValue? c, digitValue? d with
  | some a, some b, some c, some d => some (((a * 16 + b) * 16 + c) * 16 + d)
  | _, _, _, _ => none

/-- The character that an escape of one letter stands for. -/
def shortEscape? : Char → Option Char
  | '"' => some '"'
  | '\\' => some '\\'
  | '/' => some '/'
  | 'b' => some '\x08'
  | 'f' => some '\x0c'
  | 'n' => some '\n'
  | 'r' => some '\r'
  | 't' => some '\t'
  | _ => none

/-- A piece of a string: a character, or a 16-bit unit given by its number. -/
inductive Piece where
  | char (c : Char)
  | unit (n : Nat)
deriving DecidableEq, Repr

/-- The pieces of a string up to its closing quote, and what follows the quote. -/
def readPieces : List Char → Option (List Piece × List Char)
  | [] => none
  | '"' :: rest => some ([], rest)
  | '\\' :: 'u' :: a :: b :: c :: d :: rest =>
      match hexUnit? a b c d, readPieces rest with
      | some n, some (pieces, rest) => some (.unit n :: pieces, rest)
      | _, _ => none
  | '\\' :: e :: rest =>
      match shortEscape? e, readPieces rest with
      | some c, some (pieces, rest) => some (.char c :: pieces, rest)
      | _, _ => none
  | c :: rest =>
      if c = '\\' ∨ c.toNat < 0x20 then none
      else
        match readPieces rest with
        | some (pieces, rest) => some (.char c :: pieces, rest)
        | none => none

def isHighSurrogate (n : Nat) : Bool :=
  0xD800 ≤ n && n ≤ 0xDBFF

def isLowSurrogate (n : Nat) : Bool :=
  0xDC00 ≤ n && n ≤ 0xDFFF

/-- The text that pieces denote: a high surrogate and the low one after it are one character, and
neither may stand alone. -/
def joinPieces : List Piece → Option (List Char)
  | [] => some []
  | .char c :: rest => (joinPieces rest).map (c :: ·)
  | .unit n :: .unit m :: rest =>
      if isHighSurrogate n then
        if isLowSurrogate m then
          (joinPieces rest).map (Char.ofNat (0x10000 + (n - 0xD800) * 0x400 + (m - 0xDC00)) :: ·)
        else none
      else if isLowSurrogate n then none
      else (joinPieces (.unit m :: rest)).map (Char.ofNat n :: ·)
  | .unit n :: rest =>
      if isHighSurrogate n || isLowSurrogate n then none
      else (joinPieces rest).map (Char.ofNat n :: ·)

/-- Read a string after its opening quote. -/
def readString (cs : List Char) : Option (Option String × List Char) :=
  match readPieces cs with
  | some (pieces, rest) => some ((joinPieces pieces).map String.ofList, rest)
  | none => none

/-- The digits at the front of a text, and what follows them. -/
def readDigits (cs : List Char) : List Char × List Char :=
  (cs.takeWhile Char.isDigit, cs.dropWhile Char.isDigit)

/-- The digits of an integer without sign: only zero itself begins with a zero. -/
def readInteger (cs : List Char) : Option (List Char × List Char) :=
  match readDigits cs with
  | ([], _) => none
  | ('0' :: _ :: _, _) => none
  | digits => some digits

/-- A fraction, if there is one: a point and digits. -/
def readFraction : List Char → Option (List Char × List Char)
  | '.' :: cs =>
      match readDigits cs with
      | ([], _) => none
      | (digits, rest) => some ('.' :: digits, rest)
  | cs => some ([], cs)

/-- The sign of an exponent, if there is one. -/
def readSign : List Char → List Char × List Char
  | '+' :: cs => (['+'], cs)
  | '-' :: cs => (['-'], cs)
  | cs => ([], cs)

/-- An exponent, if there is one: a letter, perhaps a sign, and digits. -/
def readExponent : List Char → Option (List Char × List Char)
  | c :: cs =>
      if c = 'e' ∨ c = 'E' then
        let (sign, cs) := readSign cs
        match readDigits cs with
        | ([], _) => none
        | (digits, rest) => some (c :: sign ++ digits, rest)
      else some ([], c :: cs)
  | [] => some ([], [])

/-- Read a number after its sign, if it has one. -/
def readUnsigned (negative : Bool) (cs : List Char) : Option (Json × List Char) := do
  let (integer, cs) ← readInteger cs
  let (fraction, cs) ← readFraction cs
  let (exponent, cs) ← readExponent cs
  if !negative && fraction.isEmpty && exponent.isEmpty then
    some (.nat (numeral 10 integer), cs)
  else
    let sign := if negative then ['-'] else []
    some (.number (String.ofList (sign ++ integer ++ fraction ++ exponent)), cs)

/-- Read a value that is no array and no object. -/
def readScalar : List Char → Option (Json × List Char)
  | 'n' :: 'u' :: 'l' :: 'l' :: rest => some (.null, rest)
  | 't' :: 'r' :: 'u' :: 'e' :: rest => some (.bool true, rest)
  | 'f' :: 'a' :: 'l' :: 's' :: 'e' :: rest => some (.bool false, rest)
  | '"' :: rest => (readString rest).map fun (text, rest) => (.string text, rest)
  | '-' :: rest => readUnsigned true rest
  | cs => readUnsigned false cs

mutual

/-- Read a value; `fuel` bounds how many values and members are read one inside or after the
other. -/
def readValue : Nat → List Char → Option (Json × List Char)
  | 0, _ => none
  | fuel + 1, cs =>
      match skipSpace cs with
      | '[' :: cs =>
          match skipSpace cs with
          | ']' :: rest => some (.array [], rest)
          | cs => (readItems fuel cs).map fun (items, rest) => (.array items, rest)
      | '\x7b' :: cs =>
          match skipSpace cs with
          | '\x7d' :: rest => some (.object [], rest)
          | cs => (readMembers fuel cs).map fun (members, rest) => (.object members, rest)
      | cs => readScalar cs

/-- Read the items of an array up to its bracket, from the beginning of an item. -/
def readItems : Nat → List Char → Option (List Json × List Char)
  | 0, _ => none
  | fuel + 1, cs =>
      match readValue fuel cs with
      | none => none
      | some (item, cs) =>
          match skipSpace cs with
          | ']' :: rest => some ([item], rest)
          | ',' :: cs => (readItems fuel cs).map fun (items, rest) => (item :: items, rest)
          | _ => none

/-- Read the members of an object up to its brace, from the beginning of a member. -/
def readMembers : Nat → List Char → Option (List (Option String × Json) × List Char)
  | 0, _ => none
  | fuel + 1, cs =>
      match skipSpace cs with
      | '"' :: cs =>
          match readString cs with
          | none => none
          | some (name, cs) =>
              match skipSpace cs with
              | ':' :: cs =>
                  match readValue fuel cs with
                  | none => none
                  | some (value, cs) =>
                      match skipSpace cs with
                      | '\x7d' :: rest => some ([(name, value)], rest)
                      | ',' :: cs =>
                          (readMembers fuel cs).map fun (members, rest) =>
                            ((name, value) :: members, rest)
                      | _ => none
              | _ => none
      | _ => none

end

/-- Read a text that is one value and nothing else but white space. -/
def readChars (cs : List Char) : Option Json :=
  match readValue (2 * cs.length + 2) cs with
  | some (j, rest) => if (skipSpace rest).isEmpty then some j else none
  | none => none

/-- Read a text that is one value and nothing else but white space. -/
def read (text : String) : Option Json :=
  readChars text.toList

end PageRefresh.Json
