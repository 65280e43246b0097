import Mathlib.Data.List.TakeWhile
import PageRefresh.Json.Printer
import PageRefresh.Json.Reader
import PageRefresh.Proofs.Text.Digit

/-!
JSON that is printed is read back.

Every piece of a printed text is read as what it was printed for, whatever follows it: a string
because its escapes leave no quote and no control character in it (`readString_quote`), a number
because what follows is no part of one, and arrays and objects item by item.  Line feeds and
indentation are white space to the reader.  So `read_print` holds of every value whose numbers are
printed by the printer itself.
-/

namespace PageRefresh.Json

open PageRefresh.Text (digitValue? toList_repr isDigit_of_mem_digits exists_cons_toDigits
  digits_zero numeral_digits)

/-! ## White space -/

theorem skipSpace_cons {c : Char} (hc : isSpace c = false) (cs : List Char) :
    skipSpace (c :: cs) = c :: cs :=
  List.dropWhile_cons_of_neg (by simp [hc])

theorem skipSpace_newLine (depth : Nat) (cs : List Char) :
    skipSpace (newLine depth ++ cs) = skipSpace cs := by
  apply List.dropWhile_append_of_pos
  intro c hc
  simp only [newLine, List.mem_cons, List.mem_replicate] at hc
  rcases hc with rfl | ⟨-, rfl⟩ <;> rfl

theorem readValue_newLine (fuel depth : Nat) (cs : List Char) :
    readValue fuel (newLine depth ++ cs) = readValue fuel cs := by
  cases fuel with
  | zero => rfl
  | succ fuel => rw [readValue, readValue, skipSpace_newLine]

theorem readValue_blank (fuel : Nat) (cs : List Char) :
    readValue fuel (' ' :: cs) = readValue fuel cs := by
  cases fuel with
  | zero => rfl
  | succ fuel =>
      have hskip : skipSpace (' ' :: cs) = skipSpace cs := List.dropWhile_cons_of_pos rfl
      rw [readValue, readValue, hskip]

theorem readItems_newLine (fuel depth : Nat) (cs : List Char) :
    readItems fuel (newLine depth ++ cs) = readItems fuel cs := by
  cases fuel with
  | zero => rfl
  | succ fuel => rw [readItems, readItems, readValue_newLine]

theorem readMembers_newLine (fuel depth : Nat) (cs : List Char) :
    readMembers fuel (newLine depth ++ cs) = readMembers fuel cs := by
  cases fuel with
  | zero => rfl
  | succ fuel => rw [readMembers, readMembers, skipSpace_newLine]

/-! ## Strings -/

/-- The piece that an escaped character is read as. -/
inductive Spells (c : Char) : Piece → Prop where
  | char : Spells c (.char c)
  | unit (hc : c.toNat < 0x20) : Spells c (.unit c.toNat)

theorem digitValue?_hexDigit : ∀ n < 16, digitValue? (hexDigit n) = some n := by
  decide

theorem hexUnit?_hexDigit {n : Nat} (hn : n < 0x20) :
    hexUnit? '0' '0' (hexDigit (n / 16)) (hexDigit (n % 16)) = some n := by
  have hzero : digitValue? '0' = some 0 := rfl
  rw [hexUnit?, hzero, digitValue?_hexDigit _ (by omega), digitValue?_hexDigit _ (by omega)]
  simp only [Option.some.injEq]
  omega

section Pieces

variable {c d : Char} {rest after : List Char} {pieces : List Piece}

theorem readPieces_short (hu : c ≠ 'u') (hd : shortEscape? c = some d)
    (hread : readPieces rest = some (pieces, after)) :
    readPieces ('\\' :: c :: rest) = some (.char d :: pieces, after) := by
  rw [readPieces, hd, hread]
  exact fun _ _ _ _ _ hc => absurd hc hu

theorem readPieces_plain (hquote : c ≠ '"') (hslash : c ≠ '\\') (hc : 0x20 ≤ c.toNat)
    (hread : readPieces rest = some (pieces, after)) :
    readPieces (c :: rest) = some (.char c :: pieces, after) := by
  rw [readPieces, if_neg (by simp [hslash, hc]), hread]
  · exact hquote
  · exact fun _ _ _ _ _ hc => absurd hc hslash
  · exact fun _ _ hc => absurd hc hslash

/-- An escaped character is read as one piece, whatever follows it. -/
theorem readPieces_escape (c : Char) (hread : readPieces rest = some (pieces, after)) :
    ∃ piece, Spells c piece ∧ readPieces (escape c ++ rest) = some (piece :: pieces, after) := by
  unfold escape
  split
  · exact ⟨_, .char, readPieces_short (by decide) rfl hread⟩
  · exact ⟨_, .char, readPieces_short (by decide) rfl hread⟩
  · exact ⟨_, .char, readPieces_short (by decide) rfl hread⟩
  · exact ⟨_, .char, readPieces_short (by decide) rfl hread⟩
  · exact ⟨_, .char, readPieces_short (by decide) rfl hread⟩
  · exact ⟨_, .char, readPieces_short (by decide) rfl hread⟩
  · exact ⟨_, .char, readPieces_short (by decide) rfl hread⟩
  · rename_i hquote hslash _ _ _ _ _
    split
    · rename_i hc
      refine ⟨_, .unit hc, ?_⟩
      simp only [List.cons_append, List.nil_append]
      rw [readPieces, hexUnit?_hexDigit hc, hread]
    · rename_i hc
      exact ⟨_, .char, readPieces_plain hquote hslash (by omega) hread⟩

end Pieces

/-- No piece that an escape is read as takes part in a surrogate pair. -/
theorem joinPieces_spells {c : Char} {piece : Piece} (hspells : Spells c piece)
    (pieces : List Piece) : joinPieces (piece :: pieces) = (joinPieces pieces).map (c :: ·) := by
  cases hspells with
  | char => rfl
  | unit hc =>
      have hhigh : isHighSurrogate c.toNat = false := by
        simp only [isHighSurrogate, Bool.and_eq_false_iff, decide_eq_false_iff_not]
        omega
      have hlow : isLowSurrogate c.toNat = false := by
        simp only [isLowSurrogate, Bool.and_eq_false_iff, decide_eq_false_iff_not]
        omega
      rcases pieces with _ | ⟨d | m, pieces⟩
      · simp [joinPieces, hhigh, hlow, Char.ofNat_toNat]
      · simp [joinPieces, hhigh, hlow, Char.ofNat_toNat]
      · rw [joinPieces]
        simp [hhigh, hlow, Char.ofNat_toNat]

theorem readPieces_escaped (cs rest : List Char) :
    ∃ pieces, readPieces (cs.flatMap escape ++ '"' :: rest) = some (pieces, rest) ∧
      joinPieces pieces = some cs := by
  induction cs with
  | nil => exact ⟨[], rfl, rfl⟩
  | cons c cs ih =>
      obtain ⟨pieces, hread, hjoin⟩ := ih
      obtain ⟨piece, hspells, hescape⟩ := readPieces_escape c hread
      refine ⟨piece :: pieces, ?_, ?_⟩
      · rw [List.flatMap_cons, List.append_assoc]
        exact hescape
      · rw [joinPieces_spells hspells, hjoin]
        rfl

/-- A string is read back, also one that denotes no text. -/
theorem readString_quote (text : Option String) (rest : List Char) :
    ∃ body, quote text ++ rest = '"' :: body ∧ readString body = some (text, rest) := by
  cases text with
  | none => exact ⟨_, rfl, rfl⟩
  | some text =>
      obtain ⟨pieces, hread, hjoin⟩ := readPieces_escaped text.toList rest
      refine ⟨text.toList.flatMap escape ++ '"' :: rest, by simp [quote], ?_⟩
      rw [readString, hread]
      simp [hjoin]

/-! ## Numbers -/

/-- What can follow a value: it is no part of a number. -/
def Ends (rest : List Char) : Prop :=
  ∀ c ∈ rest.head?, c.isDigit = false ∧ c ≠ '.' ∧ c ≠ 'e' ∧ c ≠ 'E'

theorem readDigits_digits (n : Nat) {rest : List Char} (hrest : Ends rest) :
    readDigits (Nat.toDigits 10 n ++ rest) = (Nat.toDigits 10 n, rest) := by
  have hdigits : ∀ c ∈ Nat.toDigits 10 n, c.isDigit = true := fun _ => isDigit_of_mem_digits
  have htake : rest.takeWhile Char.isDigit = [] := by
    cases rest with
    | nil => rfl
    | cons c rest => exact List.takeWhile_cons_of_neg (by simp [(hrest c rfl).1])
  have hdrop : rest.dropWhile Char.isDigit = rest := by
    cases rest with
    | nil => rfl
    | cons c rest => exact List.dropWhile_cons_of_neg (by simp [(hrest c rfl).1])
  rw [readDigits, List.takeWhile_append_of_pos hdigits, List.dropWhile_append_of_pos hdigits, htake,
    hdrop, List.append_nil]

theorem readInteger_digits (n : Nat) {rest : List Char} (hrest : Ends rest) :
    readInteger (Nat.toDigits 10 n ++ rest) = some (Nat.toDigits 10 n, rest) := by
  rw [readInteger, readDigits_digits n hrest]
  split
  · rename_i heq
    exact absurd (Prod.mk.inj heq).1 Nat.toDigits_ne_nil
  · rename_i heq
    have hzero := digits_zero (Prod.mk.inj heq).1
    contradiction
  · rfl

theorem readFraction_of_ends {rest : List Char} (hrest : Ends rest) :
    readFraction rest = some ([], rest) := by
  unfold readFraction
  split
  · exact absurd rfl (hrest _ rfl).2.1
  · rfl

theorem readExponent_of_ends {rest : List Char} (hrest : Ends rest) :
    readExponent rest = some ([], rest) := by
  unfold readExponent
  split
  · obtain ⟨-, -, he, hE⟩ := hrest _ rfl
    simp [he, hE]
  · rfl

theorem ne_of_isDigit {c d : Char} (hd : d.isDigit = true) (hc : c.isDigit = false) : d ≠ c := by
  rintro rfl
  rw [hc] at hd
  contradiction

theorem isSpace_of_isDigit {d : Char} (hd : d.isDigit = true) : isSpace d = false := by
  have hne : ∀ c, c.isDigit = false → d ≠ c := fun _ => ne_of_isDigit hd
  simp [isSpace, hne ' ' rfl, hne '\n' rfl, hne '\t' rfl, hne '\r' rfl]

theorem readScalar_nat (n : Nat) {rest : List Char} (hrest : Ends rest) :
    readScalar ((Nat.repr n).toList ++ rest) = some (.nat n, rest) := by
  have hscalar : readScalar (Nat.toDigits 10 n ++ rest) =
      readUnsigned false (Nat.toDigits 10 n ++ rest) := by
    obtain ⟨d, more, hmore, hd⟩ := exists_cons_toDigits n
    rw [hmore, List.cons_append]
    have hne : ∀ c, c.isDigit = false → ∀ cs, d :: (more ++ rest) ≠ c :: cs :=
      fun c hc cs heq => ne_of_isDigit hd hc (List.cons.inj heq).1
    exact readScalar.eq_6 _ (fun _ => hne 'n' rfl _) (fun _ => hne 't' rfl _)
      (fun _ => hne 'f' rfl _) (fun _ => hne '"' rfl _) (fun _ => hne '-' rfl _)
  rw [toList_repr, hscalar, readUnsigned, readInteger_digits n hrest]
  simp [readFraction_of_ends hrest, readExponent_of_ends hrest, numeral_digits]

/-! ## Values -/

/-- A value in which every number is an integer without sign, as printed by the printer itself. -/
inductive Integral : Json → Prop where
  | null : Integral .null
  | bool (b : Bool) : Integral (.bool b)
  | nat (n : Nat) : Integral (.nat n)
  | string (text : Option String) : Integral (.string text)
  | array {items : List Json} (hitems : ∀ item ∈ items, Integral item) : Integral (.array items)
  | object {members : List (Option String × Json)} (hmembers : ∀ m ∈ members, Integral m.2) :
      Integral (.object members)

theorem Integral.ofMembers {members : List (String × Json)}
    (hmembers : ∀ m ∈ members, m.2.Integral) : (ofMembers members).Integral := by
  refine .object fun m hm => ?_
  obtain ⟨member, hmember, rfl⟩ := List.mem_map.mp hm
  exact hmembers member hmember

/-- Printed at any depth, a value is read back in front of whatever may follow it. -/
def ReadBack (j : Json) : Prop :=
  ∀ depth fuel rest, (j.printAt depth).length < fuel → Ends rest →
    readValue fuel (j.printAt depth ++ rest) = some (j, rest)

/-- A value begins with none of the characters that separate values. -/
theorem Integral.exists_cons {j : Json} (hj : j.Integral) (depth : Nat) :
    ∃ c cs, j.printAt depth = c :: cs ∧ isSpace c = false ∧ c ≠ ']' := by
  cases hj with
  | null => exact ⟨_, _, rfl, rfl, by decide⟩
  | bool b => cases b <;> exact ⟨_, _, rfl, rfl, by decide⟩
  | nat n =>
      obtain ⟨d, more, hmore, hd⟩ := exists_cons_toDigits n
      refine ⟨d, more, ?_, isSpace_of_isDigit hd, ne_of_isDigit hd rfl⟩
      rw [printAt, toList_repr, hmore]
  | string text => cases text <;> exact ⟨_, _, rfl, rfl, by decide⟩
  | @array items hitems => cases items <;> exact ⟨'[', _, rfl, rfl, by decide⟩
  | @object members hmembers => cases members <;> exact ⟨'\x7b', _, rfl, rfl, by decide⟩

/-- Between values there is a comma or a line feed. -/
theorem ends_comma (cs : List Char) : Ends (',' :: cs) := by
  intro c hc
  obtain rfl : ',' = c := by simpa using hc
  decide

theorem ends_newLine (depth : Nat) (cs : List Char) : Ends (newLine depth ++ cs) := by
  intro c hc
  obtain rfl : '\n' = c := by simpa [newLine] using hc
  decide

theorem printItems_cons (depth : Nat) (item : Json) (items : List Json) (tail : List Char) :
    printItems depth (item :: items) ++ tail =
      ',' :: (newLine depth ++ (item.printAt depth ++ (printItems depth items ++ tail))) := by
  simp [printItems]

theorem printMembers_cons (depth : Nat) (name : Option String) (value : Json)
    (members : List (Option String × Json)) (tail : List Char) :
    printMembers depth ((name, value) :: members) ++ tail =
      ',' :: (newLine depth ++ (quote name ++ (':' :: ' ' :: (value.printAt depth ++
        (printMembers depth members ++ tail))))) := by
  simp [printMembers]

theorem printAt_array (depth : Nat) (item : Json) (items : List Json) (tail : List Char) :
    (array (item :: items)).printAt depth ++ tail =
      '[' :: (newLine (depth + 1) ++ (item.printAt (depth + 1) ++
        (printItems (depth + 1) items ++ (newLine depth ++ ']' :: tail)))) := by
  simp [printAt]

theorem printAt_object (depth : Nat) (name : Option String) (value : Json)
    (members : List (Option String × Json)) (tail : List Char) :
    (object ((name, value) :: members)).printAt depth ++ tail =
      '\x7b' :: (newLine (depth + 1) ++ (quote name ++ (':' :: ' ' ::
        (value.printAt (depth + 1) ++ (printMembers (depth + 1) members ++
          (newLine depth ++ '\x7d' :: tail)))))) := by
  simp [printAt]

theorem skipSpace_comma (cs : List Char) : skipSpace (',' :: cs) = ',' :: cs :=
  skipSpace_cons rfl cs

/-- The items of an array are read one by one, each with a unit of fuel less. -/
theorem readItems_printed {items : List Json} {item : Json} (hitem : ReadBack item)
    (hitems : ∀ j ∈ items, ReadBack j) (depth outer : Nat) {fuel : Nat} (rest : List Char)
    (hfuel : (item.printAt depth ++ printItems depth items).length + 1 < fuel) :
    readItems fuel (item.printAt depth ++ (printItems depth items ++
      (newLine outer ++ ']' :: rest))) = some (item :: items, rest) := by
  induction items generalizing item fuel with
  | nil =>
      obtain ⟨fuel, rfl⟩ := Nat.exists_eq_add_one_of_ne_zero (Nat.ne_zero_of_lt hfuel)
      rw [List.length_append] at hfuel
      have hread := hitem depth fuel _ (by omega) (ends_newLine outer (']' :: rest))
      rw [readItems, printItems, List.nil_append, hread]
      simp only [skipSpace_newLine, skipSpace_cons (rfl : isSpace ']' = false)]
  | cons next items ih =>
      obtain ⟨fuel, rfl⟩ := Nat.exists_eq_add_one_of_ne_zero (Nat.ne_zero_of_lt hfuel)
      obtain ⟨hnext, hitems⟩ := List.forall_mem_cons.mp hitems
      rw [← List.append_nil (printItems depth (next :: items)), printItems_cons] at hfuel
      simp only [List.length_append, List.length_cons, List.length_nil] at hfuel
      have hread := fun cs => hitem depth fuel _ (by omega) (ends_comma cs)
      have hshort : (next.printAt depth ++ printItems depth items).length + 1 < fuel := by
        rw [List.length_append]
        omega
      rw [readItems, printItems_cons, hread]
      simp only [skipSpace_comma, readItems_newLine, ih hnext hitems hshort, Option.map_some]

/-- The members of an object are read one by one, each with a unit of fuel less. -/
theorem readMembers_printed {members : List (Option String × Json)} (name : Option String)
    {value : Json} (hvalue : ReadBack value) (hmembers : ∀ m ∈ members, ReadBack m.2)
    (depth outer : Nat) {fuel : Nat} (rest : List Char)
    (hfuel : (value.printAt depth ++ printMembers depth members).length + 1 < fuel) :
    readMembers fuel (quote name ++ (':' :: ' ' :: (value.printAt depth ++
      (printMembers depth members ++ (newLine outer ++ '\x7d' :: rest))))) =
        some ((name, value) :: members, rest) := by
  induction members generalizing name value fuel with
  | nil =>
      obtain ⟨fuel, rfl⟩ := Nat.exists_eq_add_one_of_ne_zero (Nat.ne_zero_of_lt hfuel)
      rw [List.length_append] at hfuel
      have hread := hvalue depth fuel _ (by omega) (ends_newLine outer ('\x7d' :: rest))
      obtain ⟨body, hquote, hname⟩ := readString_quote name (':' :: ' ' :: (value.printAt depth ++
        (newLine outer ++ '\x7d' :: rest)))
      rw [readMembers, printMembers, List.nil_append, hquote]
      simp only [skipSpace_cons (rfl : isSpace '"' = false), hname,
        skipSpace_cons (rfl : isSpace ':' = false), readValue_blank, hread, skipSpace_newLine,
        skipSpace_cons (rfl : isSpace '\x7d' = false)]
  | cons next members ih =>
      obtain ⟨fuel, rfl⟩ := Nat.exists_eq_add_one_of_ne_zero (Nat.ne_zero_of_lt hfuel)
      obtain ⟨nextName, nextValue⟩ := next
      obtain ⟨hnext, hmembers⟩ := List.forall_mem_cons.mp hmembers
      rw [← List.append_nil (printMembers depth _), printMembers_cons] at hfuel
      simp only [List.length_append, List.length_cons, List.length_nil] at hfuel
      have hshort : (nextValue.printAt depth ++ printMembers depth members).length + 1 < fuel := by
        rw [List.length_append]
        omega
      have hread := fun cs => hvalue depth fuel _ (by omega) (ends_comma cs)
      rw [readMembers, printMembers_cons]
      obtain ⟨body, hquote, hname⟩ := readString_quote name (':' :: ' ' :: (value.printAt depth ++
        (',' :: (newLine depth ++ (quote nextName ++ (':' :: ' ' :: (nextValue.printAt depth ++
          (printMembers depth members ++ (newLine outer ++ '\x7d' :: rest)))))))))
      rw [hquote]
      simp only [skipSpace_cons (rfl : isSpace '"' = false), hname,
        skipSpace_cons (rfl : isSpace ':' = false), readValue_blank, hread, skipSpace_comma,
        readMembers_newLine, ih nextName hnext hmembers hshort, Option.map_some]

section Value

variable {fuel : Nat} {c : Char} {cs inside rest : List Char}

/-- A value that opens no array and no object is read as a scalar. -/
theorem readValue_of_readScalar {read : Option (Json × List Char)} (hspace : isSpace c = false)
    (harray : c ≠ '[') (hobject : c ≠ '\x7b') (hread : readScalar (c :: cs) = read) :
    readValue (fuel + 1) (c :: cs) = read := by
  rw [readValue, skipSpace_cons hspace]
  split
  · exact absurd (List.cons.inj ‹_›).1 harray
  · exact absurd (List.cons.inj ‹_›).1 hobject
  · exact hread

theorem readValue_of_readItems {items : List Json} (hskip : skipSpace inside = c :: cs)
    (hc : c ≠ ']') (hread : readItems fuel (c :: cs) = some (items, rest)) :
    readValue (fuel + 1) ('[' :: inside) = some (.array items, rest) := by
  simp only [readValue, skipSpace_cons (rfl : isSpace '[' = false), hskip]
  split
  · exact absurd (List.cons.inj ‹_›).1 hc
  · rw [hread]
    rfl

theorem readValue_of_readMembers {members : List (Option String × Json)}
    (hskip : skipSpace inside = c :: cs) (hc : c ≠ '\x7d')
    (hread : readMembers fuel (c :: cs) = some (members, rest)) :
    readValue (fuel + 1) ('\x7b' :: inside) = some (.object members, rest) := by
  simp only [readValue, skipSpace_cons (rfl : isSpace '\x7b' = false), hskip]
  split
  · exact absurd (List.cons.inj ‹_›).1 hc
  · rw [hread]
    rfl

end Value

/-- Printed at any depth, a value is read back.  Each case spends one unit of fuel on the value
itself and leaves more than the length of what it is made of. -/
theorem Integral.readBack {j : Json} (hj : j.Integral) : ReadBack j := by
  induction hj with
    (intro depth fuel rest hfuel hrest
     obtain ⟨fuel, rfl⟩ := Nat.exists_eq_add_one_of_ne_zero (Nat.ne_zero_of_lt hfuel))
  | null => exact readValue_of_readScalar rfl (by decide) (by decide) rfl
  | bool b => cases b <;> exact readValue_of_readScalar rfl (by decide) (by decide) rfl
  | nat n =>
      have hread := readScalar_nat n hrest
      obtain ⟨d, more, hmore, hd⟩ := exists_cons_toDigits n
      rw [toList_repr, hmore, List.cons_append] at hread
      rw [printAt, toList_repr, hmore, List.cons_append]
      exact readValue_of_readScalar (isSpace_of_isDigit hd) (ne_of_isDigit hd rfl)
        (ne_of_isDigit hd rfl) hread
  | string text =>
      obtain ⟨body, hquote, hread⟩ := readString_quote text rest
      rw [printAt, hquote]
      refine readValue_of_readScalar rfl (by decide) (by decide) ?_
      rw [readScalar, hread]
      rfl
  | @array items hitems ih =>
      cases items with
      | nil => rfl
      | cons item items =>
          obtain ⟨hitem, hmore⟩ := List.forall_mem_cons.mp ih
          have hshort : (item.printAt (depth + 1) ++
              printItems (depth + 1) items).length + 1 < fuel := by
            simp only [printAt, newLine, List.length_append, List.length_cons] at hfuel ⊢
            omega
          have hread := readItems_printed hitem hmore (depth + 1) depth rest hshort
          obtain ⟨c, cs, hcons, hspace, hc⟩ :=
            (hitems item List.mem_cons_self).exists_cons (depth + 1)
          rw [hcons, List.cons_append] at hread
          rw [printAt_array, hcons, List.cons_append]
          refine readValue_of_readItems ?_ hc hread
          rw [skipSpace_newLine, skipSpace_cons hspace]
  | @object members hmembers ih =>
      cases members with
      | nil => rfl
      | cons member members =>
          obtain ⟨name, value⟩ := member
          obtain ⟨hvalue, hmore⟩ := List.forall_mem_cons.mp ih
          have hshort : (value.printAt (depth + 1) ++
              printMembers (depth + 1) members).length + 1 < fuel := by
            simp only [printAt, newLine, List.length_append, List.length_cons] at hfuel ⊢
            omega
          have hread := readMembers_printed name hvalue hmore (depth + 1) depth rest hshort
          obtain ⟨body, hquote, -⟩ := readString_quote name (':' :: ' ' ::
            (value.printAt (depth + 1) ++ (printMembers (depth + 1) members ++
              (newLine depth ++ '\x7d' :: rest))))
          rw [hquote] at hread
          rw [printAt_object, hquote]
          refine readValue_of_readMembers ?_ (by decide) hread
          rw [skipSpace_newLine, skipSpace_cons rfl]

theorem read_print {j : Json} (hj : j.Integral) : read j.print = some j := by
  have hread := hj.readBack 0 (2 * (j.printAt 0).length + 2) [] (by omega) (by simp [Ends])
  rw [List.append_nil] at hread
  rw [read, print, String.toList_ofList, readChars, hread]
  rfl

end PageRefresh.Json
