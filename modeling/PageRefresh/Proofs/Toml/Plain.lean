import Mathlib.Data.List.TakeWhile
import PageRefresh.Proofs.Text.Digit
import PageRefresh.Toml.Document

/-!
Documents of plain lines.

Of all the ways to write a document few are used by a program that prints one: headers and keys
without quotes or dots, decimal integers, strings of one line that need no escapes, comments and
empty lines (`Line`).  What the reader makes of such a line is said by the line itself
(`readLine_text`), and so it reads the lines of a document one after the other
(`readStatements_documentOf`).
-/

namespace PageRefresh.Toml

open PageRefresh.Text (numeral numeral_digits isDigit_of_mem_digits digits_zero
  exists_cons_toDigits)

/-! ## Decimal integers -/

/-- Only digits. -/
def Digits (cs : List Char) : Prop :=
  ∀ c ∈ cs, c.isDigit = true

section Digits

variable {cs : List Char}

theorem isTokenChar_of_isDigit {c : Char} (hc : c.isDigit = true) : isTokenChar c = true := by
  simp [isTokenChar, Char.isAlphanum, hc]

/-- Any other character makes something else of a number. -/
theorem Digits.not_mem (hcs : Digits cs) {c : Char} (hc : c.isDigit = false) : c ∉ cs := by
  intro hmem
  rw [hcs c hmem] at hc
  contradiction

theorem Digits.ne_of_mem (hcs : Digits cs) {c : Char} (hc : c.isDigit = false) {ds : List Char}
    (hmem : c ∈ ds) : cs ≠ ds := by
  rintro rfl
  exact hcs.not_mem hc hmem

theorem Digits.head_ne {d : Char} (hcs : Digits (d :: cs)) {c : Char} (hc : c.isDigit = false) :
    d ≠ c := by
  rintro rfl
  exact hcs.not_mem hc List.mem_cons_self

theorem Digits.ungroup (hcs : Digits cs) (hne : cs ≠ []) : ungroup Char.isDigit cs = some cs := by
  induction cs with
  | nil => contradiction
  | cons c cs ih =>
      obtain ⟨hc, hrest⟩ := List.forall_mem_cons.mp hcs
      cases cs with
      | nil => simp [Toml.ungroup, hc]
      | cons d rest =>
          have hd : d ≠ '_' := Digits.head_ne hrest rfl
          simp [Toml.ungroup, hc, hd, ih hrest]

theorem Digits.decimalDigits (hcs : Digits cs) (hne : cs ≠ [])
    (hzero : ∀ rest, cs = '0' :: rest → rest = []) : decimalDigits cs = some cs := by
  rw [Toml.decimalDigits, hcs.ungroup hne]
  split
  · rename_i heq
    have hrest := hzero _ (Option.some.inj heq)
    contradiction
  · rfl

theorem Digits.splitSign (hcs : Digits cs) : splitSign cs = (none, cs) := by
  unfold Toml.splitSign
  split
  · exact absurd List.mem_cons_self (hcs.not_mem (c := '+') rfl)
  · exact absurd List.mem_cons_self (hcs.not_mem (c := '-') rfl)
  · rfl

/-- A time of day has colons in it. -/
theorem Digits.afterTime? (hcs : Digits cs) : afterTime? cs = none := by
  have hcolon : ∀ rest, Digits rest → after? ':' rest = none := by
    intro rest hrest
    cases rest with
    | nil => rfl
    | cons d rest =>
        have hd : d ≠ ':' := hrest.head_ne rfl
        simp [after?, hd]
  have hhour : (twoDigits? 0 23 cs).bind (fun rest => after? ':' rest) = none := by
    rcases cs with _ | ⟨a, _ | ⟨b, rest⟩⟩
    · rfl
    · rfl
    · have hrest : Digits rest := fun c hc => hcs c (by simp [hc])
      unfold twoDigits?
      simp only
      split
      · exact hcolon rest hrest
      · rfl
  have hnone : ∀ {α : Type} (f : List Char → Option α),
      ((twoDigits? 0 23 cs).bind fun rest => (after? ':' rest).bind f) = none := by
    intro α f
    rw [← Option.bind_assoc, hhour]
    rfl
  rw [Toml.afterTime?, hnone]

/-- A date has hyphens in it. -/
theorem Digits.afterDate? (hcs : Digits cs) : afterDate? cs = none := by
  unfold Toml.afterDate?
  split
  · exact absurd (by simp) (hcs.not_mem (c := '-') rfl)
  · rfl

theorem Digits.float? (hcs : Digits cs) : float? cs = none := by
  have htake : cs.takeWhile (fun c => c.isDigit || c == '_') = cs :=
    List.takeWhile_eq_self_iff.mpr fun c hc => by simp [hcs c hc]
  have hinf : cs ≠ ['i', 'n', 'f'] := hcs.ne_of_mem (c := 'i') rfl (by simp)
  have hnan : cs ≠ ['n', 'a', 'n'] := hcs.ne_of_mem (c := 'n') rfl (by simp)
  simp only [Toml.float?, hcs.splitSign, htake, hinf, hnan, or_self, ↓reduceIte, List.drop_length,
    splitFraction, exponent?]
  cases Toml.decimalDigits cs <;> rfl

/-- Digits alone are a decimal integer. -/
theorem Digits.ofToken? (hcs : Digits cs) : Scalar.ofToken? cs = integer? cs := by
  have htrue : cs ≠ ['t', 'r', 'u', 'e'] := hcs.ne_of_mem (c := 't') rfl (by simp)
  have hfalse : cs ≠ ['f', 'a', 'l', 's', 'e'] := hcs.ne_of_mem (c := 'f') rfl (by simp)
  have hdatetime : isDatetime cs = false := by
    rw [isDatetime, hcs.afterTime?, hcs.afterDate?]
    rfl
  rw [Scalar.ofToken?, if_neg htrue, if_neg hfalse, hdatetime, hcs.float?]
  rfl

theorem Digits.integer? (hcs : Digits cs) (hne : cs ≠ [])
    (hzero : ∀ rest, cs = '0' :: rest → rest = []) :
    integer? cs = integerOf? (numeral 10 cs) := by
  unfold Toml.integer?
  split
  · exact absurd (by simp) (hcs.not_mem (c := 'x') rfl)
  · exact absurd (by simp) (hcs.not_mem (c := 'o') rfl)
  · exact absurd (by simp) (hcs.not_mem (c := 'b') rfl)
  · rw [hcs.splitSign]
    simp [hcs.decimalDigits hne hzero]

end Digits

theorem digits_toDigits (n : Nat) : Digits (Nat.toDigits 10 n) :=
  fun _ hc => isDigit_of_mem_digits hc

/-- The digits that a number is printed with are read back as that number. -/
theorem Scalar.read_digits {n : Nat} (hn : (n : Int) ≤ Int64.maxValue.toInt) (rest : List Char) :
    Scalar.read (Nat.toDigits 10 n ++ '\n' :: rest) = some (.integer n, '\n' :: rest) := by
  have hdigits := digits_toDigits n
  have htoken : ∀ c ∈ Nat.toDigits 10 n, isTokenChar c = true :=
    fun c hc => isTokenChar_of_isDigit (hdigits c hc)
  have htake : (Nat.toDigits 10 n ++ '\n' :: rest).takeWhile isTokenChar = Nat.toDigits 10 n := by
    rw [List.takeWhile_append_of_pos htoken, List.takeWhile_cons_of_neg (by decide),
      List.append_nil]
  have hdrop : (Nat.toDigits 10 n ++ '\n' :: rest).dropWhile isTokenChar = '\n' :: rest := by
    rw [List.dropWhile_append_of_pos htoken, List.dropWhile_cons_of_neg (by decide)]
  have hinteger : integer? (Nat.toDigits 10 n) = some (.integer n) := by
    have hmin : Int64.minValue.toInt ≤ n := by
      have hmin : Int64.minValue.toInt = -9223372036854775808 := rfl
      omega
    rw [hdigits.integer? Nat.toDigits_ne_nil fun rest => digits_zero, numeral_digits, integerOf?,
      if_pos ⟨hmin, hn⟩]
  simp only [Scalar.read, htake, hdrop, hdigits.ofToken?, hinteger]
  rfl

/-! ## Strings and keys -/

/-- Characters that may stand in quotes without an escape. -/
def isUnescaped (c : Char) : Bool :=
  isTextChar c && c != '"' && c != '\\'

theorem readBasic_unescaped {s : List Char} (hs : s.all isUnescaped = true) (rest : List Char) :
    readBasic .plain (s ++ '"' :: rest) = some (s, rest) := by
  induction s with
  | nil => simp [readBasic]
  | cons c s ih =>
      rw [List.all_cons, Bool.and_eq_true] at hs
      obtain ⟨hc, hs⟩ := hs
      simp only [isUnescaped, Bool.and_eq_true, bne_iff_ne, ne_eq] at hc
      obtain ⟨⟨htext, hquote⟩, hescape⟩ := hc
      simp [readBasic, htext, hquote, hescape, ih hs, consChar]

theorem readString_unescaped {s : List Char} (hs : s.all isUnescaped = true) (rest : List Char) :
    readString ('"' :: (s ++ '"' :: '\n' :: rest)) = some (s, '\n' :: rest) := by
  have hquoted : readQuoted ('"' :: (s ++ '"' :: '\n' :: rest)) = some (s, '\n' :: rest) := by
    rw [readQuoted, if_pos rfl, readBasic_unescaped hs]
  rw [← hquoted]
  cases s with
  | nil => rfl
  | cons c s =>
      have hc : c ≠ '"' := by
        simp only [List.all_cons, isUnescaped, Bool.and_eq_true, bne_iff_ne, ne_eq] at hs
        exact hs.1.1.2
      cases s <;> simp [readString, hc, apostrophe]

/-- A name that needs no quotes. -/
def isBareName (name : String) : Bool :=
  !name.toList.isEmpty && name.toList.all isBareKeyChar

section Name

variable {name : String}

/-- A name begins with a character that begins no other part of a document. -/
theorem exists_cons_of_isBareName (hname : isBareName name = true) :
    ∃ c cs, name.toList = c :: cs ∧ isBareKeyChar c = true := by
  rw [isBareName, Bool.and_eq_true] at hname
  cases hlist : name.toList with
  | nil => simp [hlist] at hname
  | cons c cs =>
      rw [hlist, List.all_cons, Bool.and_eq_true] at hname
      exact ⟨c, cs, rfl, hname.2.1⟩

theorem ne_of_isBareKeyChar {c d : Char} (hc : isBareKeyChar c = true)
    (hd : isBareKeyChar d = false) : c ≠ d := by
  rintro rfl
  rw [hc] at hd
  contradiction

theorem skipBlanks_cons {c : Char} (hc : isBlank c = false) (cs : List Char) :
    skipBlanks (c :: cs) = c :: cs :=
  List.dropWhile_cons_of_neg (by simp [hc])

theorem isBlank_of_isBareKeyChar {c : Char} (hc : isBareKeyChar c = true) : isBlank c = false := by
  simp [isBlank, ne_of_isBareKeyChar hc (d := ' ') rfl, ne_of_isBareKeyChar hc (d := '\t') rfl]

/-- A key that is a name ends at the first character that is none of its kind, and blanks. -/
theorem readKey_bare (hname : isBareName name = true) {c d : Char} {cs after : List Char}
    (hc : isBareKeyChar c = false) (hafter : skipBlanks (c :: cs) = d :: after) (hd : d ≠ '.') :
    readKey (name.toList ++ c :: cs) = some (⟨[], name⟩, d :: after) := by
  obtain ⟨first, more, hlist, hfirst⟩ := exists_cons_of_isBareName hname
  have hall : ∀ x ∈ name.toList, isBareKeyChar x = true := by
    rw [isBareName, Bool.and_eq_true] at hname
    exact List.all_eq_true.mp hname.2
  have hblanks : skipBlanks (name.toList ++ c :: cs) = name.toList ++ c :: cs := by
    rw [hlist, List.cons_append]
    exact skipBlanks_cons (isBlank_of_isBareKeyChar hfirst) _
  have htake : (name.toList ++ c :: cs).takeWhile isBareKeyChar = name.toList := by
    rw [List.takeWhile_append_of_pos hall, List.takeWhile_cons_of_neg (by simp [hc]),
      List.append_nil]
  have hdrop : (name.toList ++ c :: cs).dropWhile isBareKeyChar = c :: cs := by
    rw [List.dropWhile_append_of_pos hall, List.dropWhile_cons_of_neg (by simp [hc])]
  have hpart : readKeyPart (name.toList ++ c :: cs) = some (name, c :: cs) := by
    rw [readKeyPart, htake, hdrop, hlist]
    simp only
    rw [← hlist, String.ofList_toList]
  rw [readKey, depthLimit, readKeyParts, hblanks, hpart]
  simp only [hafter]
  split
  · rename_i heq
    exact absurd (List.cons.inj heq).1 hd
  · rfl

end Name

/-! ## Lines -/

/-- A line of a plain document. -/
inductive Line where
  | header (name : String)
  | integer (key : String) (n : Nat)
  | string (key s : String)
  | blank
  | comment (text : String)

namespace Line

/-- How the line is written. -/
def text : Line → String
  | header name => "[" ++ name ++ "]"
  | integer key n => key ++ " = " ++ Nat.repr n
  | string key s => key ++ " = \"" ++ s ++ "\""
  | blank => ""
  | comment text => "# " ++ text

/-- What the line says. -/
def statement? : Line → Option Statement
  | header name => some (.table ⟨[], name⟩)
  | integer key n => some (.entry ⟨[], key⟩ (.scalar (.integer n)))
  | string key s => some (.entry ⟨[], key⟩ (.string s))
  | blank => none
  | comment _ => none

/-- Nothing in the line would have to be written otherwise. -/
def Plain : Line → Prop
  | header name => isBareName name = true
  | integer key n => isBareName key = true ∧ (n : Int) ≤ Int64.maxValue.toInt
  | string key s => isBareName key = true ∧ s.toList.all isUnescaped = true
  | blank => True
  | comment text => text.toList.all isTextChar = true

instance : DecidablePred Plain
  | header name => inferInstanceAs (Decidable (isBareName name = true))
  | integer key n =>
      inferInstanceAs (Decidable (isBareName key = true ∧ (n : Int) ≤ Int64.maxValue.toInt))
  | string key s =>
      inferInstanceAs (Decidable (isBareName key = true ∧ s.toList.all isUnescaped = true))
  | blank => inferInstanceAs (Decidable True)
  | comment text => inferInstanceAs (Decidable (text.toList.all isTextChar = true))

end Line

/-- What begins with no bracket is a string or a scalar. -/
theorem readValue_cons {c : Char} (hbracket : c ≠ '[') (hbrace : c ≠ '\x7b') (depth fuel : Nat)
    (cs : List Char) :
    readValue depth (fuel + 1) (c :: cs) =
      if c = '"' ∨ c = apostrophe then
        (readString (c :: cs)).map fun (s, rest) => (.string (String.ofList s), rest)
      else (Scalar.read (c :: cs)).map fun (s, rest) => (.scalar s, rest) := by
  unfold readValue
  split
  · exact absurd (List.cons.inj ‹_›).1 hbracket
  · exact absurd (List.cons.inj ‹_›).1 hbrace
  · rename_i heq
    obtain ⟨rfl, rfl⟩ := List.cons.inj heq
    rfl
  · contradiction

theorem readValue_digits {n : Nat} (hn : (n : Int) ≤ Int64.maxValue.toInt) (depth fuel : Nat)
    (rest : List Char) :
    readValue depth (fuel + 1) (Nat.toDigits 10 n ++ '\n' :: rest) =
      some (.scalar (.integer n), '\n' :: rest) := by
  have hread := Scalar.read_digits hn rest
  obtain ⟨d, more, hlist, -⟩ := exists_cons_toDigits n
  have hdigits : Digits (d :: more) := hlist ▸ digits_toDigits n
  have hne : ∀ c : Char, c.isDigit = false → d ≠ c := fun c hc => hdigits.head_ne hc
  have hquote : ¬(d = '"' ∨ d = apostrophe) := by
    simp [hne '"' rfl, hne apostrophe rfl]
  rw [hlist, List.cons_append] at hread ⊢
  rw [readValue_cons (hne '[' rfl) (hne '\x7b' rfl), if_neg hquote, hread]
  rfl

theorem readValue_unescaped {s : String} (hs : s.toList.all isUnescaped = true)
    (depth fuel : Nat) (rest : List Char) :
    readValue depth (fuel + 1) ('"' :: (s.toList ++ '"' :: '\n' :: rest)) =
      some (.string s, '\n' :: rest) := by
  rw [readValue_cons (by decide) (by decide), if_pos (.inl rfl), readString_unescaped hs,
    Option.map_some]
  simp only [String.ofList_toList]

/-- An entry under a name, with a value that ends at the line break. -/
theorem readEntry_bare {key : String} {value : Value} {written rest : List Char}
    (hkey : isBareName key = true)
    (hstart : skipBlanks (written ++ '\n' :: rest) = written ++ '\n' :: rest)
    (hvalue : ∀ fuel, readValue depthLimit (fuel + 1) (written ++ '\n' :: rest) =
      some (value, '\n' :: rest)) :
    readEntry (key.toList ++ ' ' :: '=' :: ' ' :: (written ++ '\n' :: rest)) =
      some (.entry ⟨[], key⟩ value, rest) := by
  have hblank : ∀ cs, skipBlanks (' ' :: cs) = skipBlanks cs :=
    fun cs => List.dropWhile_cons_of_pos rfl
  have hequals : skipBlanks (' ' :: '=' :: ' ' :: (written ++ '\n' :: rest)) =
      '=' :: ' ' :: (written ++ '\n' :: rest) := by
    rw [hblank, skipBlanks_cons rfl]
  rw [readEntry, readKey_bare hkey rfl hequals (by decide)]
  simp only [hblank, hstart, hvalue]
  rfl

/-- A line that begins with no bracket says nothing or is an entry. -/
theorem readLine_cons {c : Char} (hblank : isBlank c = false) (hbracket : c ≠ '[')
    (cs : List Char) :
    readLine (c :: cs) =
      if c = '#' ∨ c = '\n' ∨ c = '\r' then (lineEnd? (c :: cs)).map (none, ·)
      else (readEntry (c :: cs)).map fun (s, rest) => (some s, rest) := by
  rw [readLine, skipBlanks_cons hblank]
  split
  · exact absurd (List.cons.inj ‹_›).1 hbracket
  · rename_i heq
    obtain ⟨rfl, rfl⟩ := List.cons.inj heq
    rfl
  · contradiction

/-- A line that begins with a name is an entry. -/
theorem readLine_bare {key : String} {cs rest : List Char} {s : Statement}
    (hkey : isBareName key = true) (hentry : readEntry (key.toList ++ cs) = some (s, rest)) :
    readLine (key.toList ++ cs) = some (some s, rest) := by
  obtain ⟨c, more, hlist, hc⟩ := exists_cons_of_isBareName hkey
  have hne : ∀ d, isBareKeyChar d = false → c ≠ d := fun d => ne_of_isBareKeyChar hc
  have hempty : ¬(c = '#' ∨ c = '\n' ∨ c = '\r') := by
    simp [hne '#' rfl, hne '\n' rfl, hne '\r' rfl]
  rw [hlist, List.cons_append] at hentry ⊢
  rw [readLine_cons (isBlank_of_isBareKeyChar hc) (hne '[' rfl), if_neg hempty, hentry]
  rfl

theorem readLine_header {name : String} (hname : isBareName name = true) (rest : List Char) :
    readLine ('[' :: (name.toList ++ ']' :: '\n' :: rest)) =
      some (some (.table ⟨[], name⟩), rest) := by
  have hkey : readKey (name.toList ++ ']' :: '\n' :: rest) =
      some (⟨[], name⟩, ']' :: '\n' :: rest) :=
    readKey_bare hname rfl (skipBlanks_cons rfl _) (by decide)
  obtain ⟨c, more, hlist, hc⟩ := exists_cons_of_isBareName hname
  have hheader : readHeader (name.toList ++ ']' :: '\n' :: rest) =
      some (.table ⟨[], name⟩, rest) := by
    rw [hlist, List.cons_append] at hkey ⊢
    unfold readHeader
    split
    · exact absurd (List.cons.inj ‹_›).1 (ne_of_isBareKeyChar hc rfl)
    · rw [hkey]
      rfl
  rw [readLine, skipBlanks_cons rfl]
  simp only [hheader, Option.map_some]

theorem readLine_comment {text : List Char} (htext : text.all isTextChar = true)
    (rest : List Char) : readLine ('#' :: (text ++ '\n' :: rest)) = some (none, rest) := by
  have hdrop : (text ++ '\n' :: rest).dropWhile isTextChar = '\n' :: rest := by
    rw [List.dropWhile_append_of_pos (List.all_eq_true.mp htext),
      List.dropWhile_cons_of_neg (by decide)]
  have hskip : skipComment ('#' :: (text ++ '\n' :: rest)) = '\n' :: rest := by
    rw [skipComment, skipBlanks_cons rfl]
    exact hdrop
  rw [readLine_cons rfl (by decide), if_pos (.inl rfl), lineEnd?, hskip]
  rfl

/-- A line of a plain document says what it was written to say. -/
theorem Line.readLine_text {line : Line} (hplain : line.Plain) (rest : List Char) :
    readLine (line.text.toList ++ '\n' :: rest) = some (line.statement?, rest) := by
  cases line with
  | header name =>
      have hline := readLine_header hplain rest
      simpa [text, statement?] using hline
  | integer key n =>
      obtain ⟨hkey, hn⟩ := hplain
      have hstart : skipBlanks (Nat.toDigits 10 n ++ '\n' :: rest) =
          Nat.toDigits 10 n ++ '\n' :: rest := by
        obtain ⟨d, more, hlist, hd⟩ := exists_cons_toDigits n
        rw [hlist]
        refine skipBlanks_cons (isBlank_of_isBareKeyChar ?_) _
        simp [isBareKeyChar, Char.isAlphanum, hd]
      have hline := readLine_bare hkey
        (readEntry_bare hkey hstart fun fuel => readValue_digits hn depthLimit fuel rest)
      simpa [text, statement?] using hline
  | string key s =>
      obtain ⟨hkey, hs⟩ := hplain
      have hvalue : ∀ fuel, readValue depthLimit (fuel + 1)
          (('"' :: (s.toList ++ ['"'])) ++ '\n' :: rest) = some (.string s, '\n' :: rest) := by
        intro fuel
        simpa using readValue_unescaped hs depthLimit fuel rest
      have hline := readLine_bare hkey (readEntry_bare hkey (skipBlanks_cons rfl _) hvalue)
      simpa [text, statement?] using hline
  | blank => rfl
  | comment text =>
      have htext : (' ' :: text.toList).all isTextChar = true := by
        rw [List.all_cons, hplain]
        rfl
      have hline := readLine_comment htext rest
      simpa [Line.text, statement?] using hline

/-- The text of a document of these lines. -/
def documentOf (lines : List Line) : List Char :=
  lines.flatMap fun line => line.text.toList ++ ['\n']

theorem readLinesOf_documentOf {lines : List Line} (hplain : ∀ line ∈ lines, line.Plain)
    {limit : Nat} (hlimit : lines.length ≤ limit) :
    readLinesOf limit (documentOf lines) = some (lines.filterMap Line.statement?) := by
  induction lines generalizing limit with
  | nil => cases limit <;> rfl
  | cons line lines ih =>
      obtain ⟨hline, hlines⟩ := List.forall_mem_cons.mp hplain
      rw [List.length_cons] at hlimit
      obtain ⟨limit, rfl⟩ : ∃ smaller, limit = smaller + 1 := ⟨limit - 1, by omega⟩
      have htext : documentOf (line :: lines) =
          line.text.toList ++ '\n' :: documentOf lines := by
        simp [documentOf]
      obtain ⟨c, cs, hlist⟩ : ∃ c cs, documentOf (line :: lines) = c :: cs := by
        rw [htext]
        cases line.text.toList <;> exact ⟨_, _, rfl⟩
      have hread := Line.readLine_text hline (documentOf lines)
      rw [← htext, hlist] at hread
      rw [hlist, readLinesOf, hread]
      · simp only [ih hlines (by omega : lines.length ≤ limit), Option.map_some,
          List.filterMap_cons]
        cases line.statement? <;> rfl
      · simp

/-- A plain document does not begin with a byte order mark. -/
theorem Line.dropByteOrderMark_text {line : Line} (hplain : line.Plain) (rest : List Char) :
    dropByteOrderMark (line.text.toList ++ '\n' :: rest) = line.text.toList ++ '\n' :: rest := by
  have hbare : ∀ {name : String}, isBareName name = true → ∀ cs,
      dropByteOrderMark (name.toList ++ cs) = name.toList ++ cs := by
    intro name hname cs
    obtain ⟨c, more, hlist, hc⟩ := exists_cons_of_isBareName hname
    rw [hlist, List.cons_append]
    unfold dropByteOrderMark
    split
    · exact absurd (List.cons.inj ‹_›).1 (ne_of_isBareKeyChar hc rfl)
    · rfl
  cases line with
  | header name => simp [text, dropByteOrderMark]
  | integer key n => simpa [text] using hbare hplain.1 _
  | string key s => simpa [text] using hbare hplain.1 _
  | blank => rfl
  | comment text => simp [Line.text, dropByteOrderMark]

theorem length_le_documentOf (lines : List Line) : lines.length ≤ (documentOf lines).length := by
  induction lines with
  | nil => exact Nat.le_refl _
  | cons line lines ih =>
      rw [documentOf, List.flatMap_cons, ← documentOf]
      simp only [List.length_append, List.length_cons, List.length_nil]
      omega

/-- Reading a plain document gives what its lines say. -/
theorem readStatements_documentOf {lines : List Line} (hplain : ∀ line ∈ lines, line.Plain) :
    readStatements (documentOf lines) = some (lines.filterMap Line.statement?) := by
  have hmark : dropByteOrderMark (documentOf lines) = documentOf lines := by
    cases lines with
    | nil => rfl
    | cons line lines =>
        have hline := hplain line List.mem_cons_self
        rw [documentOf, List.flatMap_cons, List.append_assoc]
        exact Line.dropByteOrderMark_text hline _
  rw [readStatements, hmark]
  exact readLinesOf_documentOf hplain (Nat.le_succ_of_le (length_le_documentOf lines))

end PageRefresh.Toml
