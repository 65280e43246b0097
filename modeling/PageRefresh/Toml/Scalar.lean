import PageRefresh.Text.Digit
import PageRefresh.Toml.Value

/-!
Numbers, truth values and dates.

None of them holds a delimiter, save for the one space that may stand between a date and a time, so
each is found as the longest run of characters of its kind (`Scalar.read`) and then told by its
form.
-/

namespace PageRefresh.Toml

open PageRefresh.Text (isDigitOf numeral)

/-- The characters that numbers, truth values and dates are made of. -/
def isTokenChar (c : Char) : Bool :=
  c.isAlphanum || c == '+' || c == '-' || c == '_' || c == '.' || c == ':'

/-- Digits with the underscores taken out that may stand between two of them. -/
def ungroup (isDigit : Char → Bool) : List Char → Option (List Char)
  | [] => none
  | [c] => if isDigit c then some [c] else none
  | c :: '_' :: rest => if isDigit c then (ungroup isDigit rest).map (c :: ·) else none
  | c :: rest => if isDigit c then (ungroup isDigit rest).map (c :: ·) else none

/-- The sign of a number, if it has one, and what follows it. -/
def splitSign : List Char → Option Char × List Char
  | '+' :: cs => (some '+', cs)
  | '-' :: cs => (some '-', cs)
  | cs => (none, cs)

/-- The digits of a decimal integer: only zero itself begins with a zero. -/
def decimalDigits (cs : List Char) : Option (List Char) :=
  match ungroup Char.isDigit cs with
  | some ('0' :: _ :: _) => none
  | digits => digits

/-- An integer that fits a signed word of 64 bits. -/
def integerOf? (n : Int) : Option Scalar :=
  if Int64.minValue.toInt ≤ n ∧ n ≤ Int64.maxValue.toInt then some (.integer n) else none

/-- An integer of a base that a letter announces. -/
def basedInteger? (base : Nat) (cs : List Char) : Option Scalar :=
  (ungroup (isDigitOf base) cs).bind fun digits => integerOf? (numeral base digits)

def integer? : List Char → Option Scalar
  | '0' :: 'x' :: cs => basedInteger? 16 cs
  | '0' :: 'o' :: cs => basedInteger? 8 cs
  | '0' :: 'b' :: cs => basedInteger? 2 cs
  | cs =>
      let (sign, cs) := splitSign cs
      (decimalDigits cs).bind fun digits =>
        let n : Int := numeral 10 digits
        integerOf? (if sign = some '-' then -n else n)

/-- The fraction of a float, if it has one, and what follows it. -/
def splitFraction : List Char → Option (List Char × List Char)
  | '.' :: cs =>
      let digits := cs.takeWhile fun c => c.isDigit || c == '_'
      (ungroup Char.isDigit digits).map fun fraction => (fraction, cs.drop digits.length)
  | cs => some ([], cs)

/-- The exponent of a float, if it has one. -/
def exponent? : List Char → Option Int
  | [] => some 0
  | c :: cs =>
      if c = 'e' ∨ c = 'E' then
        let (sign, cs) := splitSign cs
        (ungroup Char.isDigit cs).map fun digits =>
          let n : Int := numeral 10 digits
          if sign = some '-' then -n else n
      else none

/-- Whether `mantissa * 10 ^ exponent` is nearer to the double-precision infinity than to the
greatest finite double, which decides only where the decimal order of magnitude does not. -/
def overflows (mantissa : Nat) (exponent : Int) : Bool :=
  let magnitude : Int := (Nat.repr mantissa).length + exponent
  let limit := Nat.pow 2 1024 - Nat.pow 2 970
  if mantissa = 0 then false
  else if magnitude > 400 then true
  else if magnitude < 300 then false
  else limit * Nat.pow 10 (-exponent).toNat ≤ mantissa * Nat.pow 10 exponent.toNat

/-- A float: an infinity, a not-a-number, or decimal digits with a fraction, an exponent or both. A
positive one must not round to infinity. -/
def float? (written : List Char) : Option Scalar :=
  let float := Scalar.float (String.ofList written)
  let (sign, cs) := splitSign written
  if cs = ['i', 'n', 'f'] ∨ cs = ['n', 'a', 'n'] then some float
  else
    let digits := cs.takeWhile fun c => c.isDigit || c == '_'
    let rest := cs.drop digits.length
    match decimalDigits digits, splitFraction rest with
    | some integer, some (fraction, tail) =>
        match exponent? tail with
        | some exponent =>
            let mantissa := numeral 10 (integer ++ fraction)
            if rest = [] then none
            else if sign ≠ some '-' ∧ overflows mantissa (exponent - fraction.length) then none
            else some float
        | none => none
    | _, _ => none

/-- Two digits with a value between bounds, and what follows them. -/
def twoDigits? (low high : Nat) : List Char → Option (List Char)
  | a :: b :: rest =>
      let n := numeral 10 [a, b]
      if a.isDigit && b.isDigit && low ≤ n && n ≤ high then some rest else none
  | _ => none

/-- What follows a given character. -/
def after? (c : Char) : List Char → Option (List Char)
  | d :: rest => if d = c then some rest else none
  | [] => none

/-- How many days a month has. -/
def daysIn (year month : Nat) : Nat :=
  if month = 2 then if year % 4 = 0 ∧ (year % 100 ≠ 0 ∨ year % 400 = 0) then 29 else 28
  else if month = 4 ∨ month = 6 ∨ month = 9 ∨ month = 11 then 30
  else 31

/-- What follows a date at the front. -/
def afterDate? : List Char → Option (List Char)
  | y₁ :: y₂ :: y₃ :: y₄ :: '-' :: m₁ :: m₂ :: '-' :: rest =>
      let year := [y₁, y₂, y₃, y₄]
      if year.all Char.isDigit then
        match twoDigits? 1 12 [m₁, m₂] with
        | some _ => twoDigits? 1 (daysIn (numeral 10 year) (numeral 10 [m₁, m₂])) rest
        | none => none
      else none
  | _ => none

/-- What follows a time of day at the front. -/
def afterTime? (cs : List Char) : Option (List Char) :=
  match (twoDigits? 0 23 cs).bind fun cs => (after? ':' cs).bind fun cs =>
      (twoDigits? 0 59 cs).bind fun cs => (after? ':' cs).bind fun cs => twoDigits? 0 60 cs with
  | some ('.' :: rest) =>
      let digits := rest.takeWhile Char.isDigit
      if digits.isEmpty then none else some (rest.drop digits.length)
  | rest => rest

/-- Whether a text is an offset from universal time, or empty. -/
def isOffset : List Char → Bool
  | [] => true
  | ['Z'] => true
  | ['z'] => true
  | c :: rest =>
      (c == '+' || c == '-') &&
        ((twoDigits? 0 23 rest).bind fun cs => (after? ':' cs).bind (twoDigits? 0 59 ·)) == some []

/-- Whether a text is a time of day, perhaps with an offset. -/
def isOffsetTime (cs : List Char) : Bool :=
  match afterTime? cs with
  | some rest => isOffset rest
  | none => false

/-- Whether a text is a date, a time of day, or a date and a time joined by a letter. -/
def isDatetime (cs : List Char) : Bool :=
  afterTime? cs == some [] ||
    match afterDate? cs with
    | some [] => true
    | some (c :: rest) => (c == 'T' || c == 't') && isOffsetTime rest
    | none => false

/-- A number, truth value or date written without spaces. -/
def Scalar.ofToken? (cs : List Char) : Option Scalar :=
  if cs = ['t', 'r', 'u', 'e'] then some (.boolean true)
  else if cs = ['f', 'a', 'l', 's', 'e'] then some (.boolean false)
  else if isDatetime cs then some (.datetime (String.ofList cs))
  else (float? cs).or (integer? cs)

/-- Read a number, truth value or date. A digit that one space parts from a date begins its time. -/
def Scalar.read (cs : List Char) : Option (Scalar × List Char) :=
  let token := cs.takeWhile isTokenChar
  let rest := cs.dropWhile isTokenChar
  match rest with
  | ' ' :: d :: _ =>
      if afterDate? token == some [] && d.isDigit then
        let time := (rest.drop 1).takeWhile isTokenChar
        if isOffsetTime time then
          some (.datetime (String.ofList (token ++ ' ' :: time)), rest.drop (1 + time.length))
        else none
      else (ofToken? token).map (·, rest)
  | _ => (ofToken? token).map (·, rest)

end PageRefresh.Toml
