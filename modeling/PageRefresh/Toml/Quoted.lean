import PageRefresh.Text.Digit

/-!
Strings in quotes.

There are two kinds of quotes, with and without escapes, and either may be tripled, in which case
the string may go over several lines: a line break right after the opening quotes does not count,
and up to two quotes may stand before the closing three. Each reader goes through the text one
character at a time and keeps in a small state what it has begun.
-/

namespace PageRefresh.Toml

/-- The quote of strings without escapes. -/
def apostrophe : Char := '\x27'

/-- Whether a character may stand in a comment, or in a string that gives it no other meaning. -/
def isTextChar (c : Char) : Bool :=
  c == '\t' || (0x20 ≤ c.toNat && c.toNat ≠ 0x7F)

/-- The character that an escape of one letter stands for. -/
def shortEscape? : Char → Option Char
  | '"' => some '"'
  | '\\' => some '\\'
  | 'b' => some '\x08'
  | 'f' => some '\x0c'
  | 'n' => some '\n'
  | 'r' => some '\r'
  | 't' => some '\t'
  | _ => none

/-- The character with this number; surrogates and numbers out of range have none. -/
def scalar? (n : Nat) : Option Char :=
  if n.isValidChar then some (Char.ofNat n) else none

/-- What a string with escapes is in the middle of. -/
inductive EscapeState where
  | plain
  /-- After a backslash. -/
  | escaped
  /-- So many hexadecimal digits are still to come, on top of this value. -/
  | digits (left value : Nat)
deriving DecidableEq, Repr

/-- What an escape comes to when its next character is `c`: a character it stands for, or more of
it to come. -/
def EscapeState.next : EscapeState → Char → Option (Option Char × EscapeState)
  | .plain, _ => none
  | .escaped, c =>
      match shortEscape? c with
      | some e => some (some e, .plain)
      | none =>
          if c = 'u' then some (none, .digits 4 0)
          else if c = 'U' then some (none, .digits 8 0)
          else none
  | .digits left value, c =>
      match Text.digitValue? c with
      | none => none
      | some d =>
          let value := value * 16 + d
          if left ≤ 1 then (scalar? value).map fun e => (some e, .plain)
          else some (none, .digits (left - 1) value)

/-- Put a character, if there is one, before those of a string that was read. -/
def consChar (c : Option Char) (r : Option (List Char × List Char)) :
    Option (List Char × List Char) :=
  r.map fun (cs, rest) => (c.toList ++ cs, rest)

/-- Read a string with escapes after its opening quote. -/
def readBasic : EscapeState → List Char → Option (List Char × List Char)
  | _, [] => none
  | .plain, c :: cs =>
      if c = '"' then some ([], cs)
      else if c = '\\' then readBasic .escaped cs
      else if isTextChar c then consChar (some c) (readBasic .plain cs)
      else none
  | st, c :: cs =>
      match st.next c with
      | some (e, st) => consChar e (readBasic st cs)
      | none => none

/-- Read a string without escapes after its opening quote. -/
def readLiteral : List Char → Option (List Char × List Char)
  | [] => none
  | c :: cs =>
      if c = apostrophe then some ([], cs)
      else if isTextChar c then consChar (some c) (readLiteral cs)
      else none

/-- What a string of several lines is in the middle of. -/
inductive LinesState where
  /-- After so many quotes in a row. -/
  | text (quotes : Nat)
  | escape (st : EscapeState)
  /-- After a backslash and blanks, which must end in a line break. -/
  | lineEnd
  /-- After a backslash and a line break: blanks and line breaks do not count. -/
  | gap
deriving DecidableEq, Repr

/-- So many quotes at the end of a string of several lines: the last three close it. -/
def closeLines (quote : Char) (quotes : Nat) (rest : List Char) : Option (List Char × List Char) :=
  if 3 ≤ quotes ∧ quotes ≤ 5 then some (List.replicate (quotes - 3) quote, rest) else none

/-- Put quotes that closed nothing before the characters that were read. -/
def consQuotes (quote : Char) (quotes : Nat) (r : Option (List Char × List Char)) :
    Option (List Char × List Char) :=
  r.map fun (cs, rest) => (List.replicate quotes quote ++ cs, rest)

/-- Read a string of several lines after its opening quotes. -/
def readLines (quote : Char) (escapes : Bool) : LinesState → List Char →
    Option (List Char × List Char)
  | .text quotes, [] => closeLines quote quotes []
  | _, [] => none
  | .text quotes, c :: cs =>
      if c = quote then readLines quote escapes (.text (quotes + 1)) cs
      else if 3 ≤ quotes then closeLines quote quotes (c :: cs)
      else
        consQuotes quote quotes
          (if c = '\\' ∧ escapes then readLines quote escapes (.escape .escaped) cs
          else if c = '\n' then consChar (some '\n') (readLines quote escapes (.text 0) cs)
          else if c = '\r' then
            match cs with
            | '\n' :: cs => consChar (some '\n') (readLines quote escapes (.text 0) cs)
            | _ => none
          else if isTextChar c then consChar (some c) (readLines quote escapes (.text 0) cs)
          else none)
  | .escape st, c :: cs =>
      if st = .escaped ∧ (c = ' ' ∨ c = '\t') then readLines quote escapes .lineEnd cs
      else if st = .escaped ∧ c = '\n' then readLines quote escapes .gap cs
      else if st = .escaped ∧ c = '\r' then
        match cs with
        | '\n' :: cs => readLines quote escapes .gap cs
        | _ => none
      else
        match st.next c with
        | some (e, .plain) => consChar e (readLines quote escapes (.text 0) cs)
        | some (e, st) => consChar e (readLines quote escapes (.escape st) cs)
        | none => none
  | .lineEnd, c :: cs =>
      if c = ' ' ∨ c = '\t' then readLines quote escapes .lineEnd cs
      else if c = '\n' then readLines quote escapes .gap cs
      else if c = '\r' then
        match cs with
        | '\n' :: cs => readLines quote escapes .gap cs
        | _ => none
      else none
  | .gap, c :: cs =>
      if c = ' ' ∨ c = '\t' ∨ c = '\n' then readLines quote escapes .gap cs
      else if c = '\r' then
        match cs with
        | '\n' :: cs => readLines quote escapes .gap cs
        | _ => none
      else if c = quote then readLines quote escapes (.text 1) cs
      else if c = '\\' then readLines quote escapes (.escape .escaped) cs
      else if isTextChar c then consChar (some c) (readLines quote escapes (.text 0) cs)
      else none

/-- A text without the line break that it may begin with. -/
def dropLineBreak : List Char → List Char
  | '\n' :: cs => cs
  | '\r' :: '\n' :: cs => cs
  | cs => cs

/-- Read a string of one line, from its opening quote on. -/
def readQuoted : List Char → Option (List Char × List Char)
  | c :: cs =>
      if c = '"' then readBasic .plain cs
      else if c = apostrophe then readLiteral cs
      else none
  | [] => none

/-- Read a string of any kind, from its opening quote on. -/
def readString (cs : List Char) : Option (List Char × List Char) :=
  match cs with
  | a :: b :: c :: rest =>
      if a = '"' ∧ b = '"' ∧ c = '"' then readLines '"' true (.text 0) (dropLineBreak rest)
      else if a = apostrophe ∧ b = apostrophe ∧ c = apostrophe then
        readLines apostrophe false (.text 0) (dropLineBreak rest)
      else readQuoted cs
  | cs => readQuoted cs

end PageRefresh.Toml
