import PageRefresh.Broadcast.Policy
import PageRefresh.Config.Json
import PageRefresh.Config.Toml
import PageRefresh.Proofs.Text.Blank
import PageRefresh.Proofs.Text.Case

/-!
How policies are spelled.

A user may put white space around a policy's name and write its letters in either case.  The reader
goes by Unicode's lower case, which knows many more letters than the names have, but no other text
comes to one of the two names by it (`read_eq_ok_iff`).
-/

namespace PageRefresh.BroadcastPolicy

open PageRefresh.Text

variable {p : BroadcastPolicy} {text : String} {word : List Char}

/-! ## The two names -/

theorem ofName?_eq_some_iff : ofName? text = some p ↔ text = p.name := by
  constructor
  · intro hfound
    unfold ofName? at hfound
    split at hfound
    · exact congrArg name (Option.some.inj hfound)
    · exact congrArg name (Option.some.inj hfound)
    · contradiction
  · rintro rfl
    exact ofName?_name p

theorem name_ascii (p : BroadcastPolicy) : ∀ d ∈ p.name.toList, isAscii d = true := by
  have hall : p.name.toList.all isAscii = true := by cases p <;> decide
  exact List.all_eq_true.mp hall

/-- A name in a JSON text is read as its policy. -/
theorem ofJson?_name (p : BroadcastPolicy) : ofJson? (.text p.name) = some p :=
  ofName?_name p

theorem k_not_mem_name (p : BroadcastPolicy) : 'k' ∉ p.name.toList := by
  cases p <;> decide

theorem name_not_blank (p : BroadcastPolicy) : ∀ d ∈ p.name.toList, isBlank d = false := by
  have hall : p.name.toList.all (!isBlank ·) = true := by cases p <;> decide
  simpa using hall

theorem map_toLower_name (p : BroadcastPolicy) :
    p.name.toList.map Char.toLower = p.name.toList := by
  cases p <;> decide

/-! ## Texts that spell them -/

theorem read_eq_ok_iff :
    read text = .ok p ↔ (trimBlanks text.toList).map Char.toLower = p.name.toList := by
  rw [← lowercase_eq_iff p.name_ascii p.k_not_mem_name]
  have hname : ofName? (String.ofList (lowercase (trimBlanks text.toList))) = some p ↔
      lowercase (trimBlanks text.toList) = p.name.toList := by
    rw [ofName?_eq_some_iff, ← String.toList_inj, String.toList_ofList]
  rw [← hname, read]
  cases ofName? (String.ofList (lowercase (trimBlanks text.toList))) <;> simp

theorem read_eq_error_iff :
    read text = .error (.invalidPolicy text) ↔ ∀ p, read text ≠ .ok p := by
  rw [read]
  cases ofName? (String.ofList (lowercase (trimBlanks text.toList))) <;> simp

/-- A text that spells a name has no white space in it. -/
theorem trimmed_of_map_toLower (hword : word.map Char.toLower = p.name.toList) :
    Trimmed word := by
  have hclear : ∀ c ∈ word, isBlank c = false := by
    intro c hc
    by_contra hnot
    have hblank : isBlank c = true := by simpa using hnot
    have hsmall : c.toLower ∈ p.name.toList := hword ▸ List.mem_map.mpr ⟨c, hc, rfl⟩
    rw [toLower_of_isBlank hblank] at hsmall
    rw [p.name_not_blank c hsmall] at hblank
    contradiction
  exact ⟨fun c hc => hclear c (List.mem_of_mem_head? hc),
    fun c hc => hclear c (List.mem_of_mem_getLast? hc)⟩

theorem read_eq_ok_iff_parts :
    read text = .ok p ↔ ∃ before word after, Blank before ∧ Blank after ∧
      text.toList = before ++ word ++ after ∧ word.map Char.toLower = p.name.toList := by
  rw [read_eq_ok_iff]
  constructor
  · intro hword
    obtain ⟨before, after, hbefore, hafter, -, hparts⟩ := exists_parts text.toList
    exact ⟨before, _, after, hbefore, hafter, hparts, hword⟩
  · rintro ⟨before, word, after, hbefore, hafter, hparts, hword⟩
    rw [hparts, trimBlanks_parts hbefore hafter (trimmed_of_map_toLower hword), hword]

theorem read_name (p : BroadcastPolicy) : read p.name = .ok p :=
  read_eq_ok_iff_parts.mpr
    ⟨[], p.name.toList, [], by decide, by decide, by simp, map_toLower_name p⟩

/-- Which policy a text is read as, if it is read as one. -/
structure Spells (text : String) : Prop where
  /-- Accepted is a name in letters of either case, with white space around it. -/
  accepted : ∀ p, read text = .ok p ↔ ∃ before word after, Blank before ∧ Blank after ∧
    text.toList = before ++ word ++ after ∧
      word.map Char.toLower = p.name.toList.map Char.toLower
  /-- No letter outside of ASCII passes for one of a name's. -/
  ascii : ∀ c ∈ trimBlanks text.toList, 128 ≤ c.toNat → read text = .error (.invalidPolicy text)
  /-- Whatever is not accepted is given back as it is. -/
  refused : (∀ p, read text ≠ .ok p) ↔ read text = .error (.invalidPolicy text)
  name : ∀ p, text = p.name → read text = .ok p
  /-- What other readers take for the name of a policy is read as the same policy. -/
  json : ∀ p j, j.name? = some text → ofJson? j = some p → read text = .ok p
  toml : ∀ p, (Toml.Node.string text).policy? = some p → read text = .ok p

/-- The texts that are read as a policy, of all texts there are. -/
theorem policy_spellings (text : String) : Spells text := by
  constructor
  case accepted =>
    intro p
    rw [map_toLower_name]
    exact read_eq_ok_iff_parts
  case ascii =>
    intro c hc hlarge
    rw [read_eq_error_iff]
    intro p hok
    have hascii := ascii_of_map_toLower p.name_ascii (read_eq_ok_iff.mp hok) c hc
    simp only [isAscii, decide_eq_true_eq] at hascii
    omega
  case refused => exact read_eq_error_iff.symm
  case name =>
    rintro p rfl
    exact read_name p
  case json =>
    intro p j htext hjson
    rw [ofJson?, htext] at hjson
    rw [ofName?_eq_some_iff.mp hjson]
    exact read_name p
  case toml =>
    intro p hnode
    rw [ofName?_eq_some_iff.mp hnode]
    exact read_name p

/-- Spaces of two kinds around a name are dropped; a capital I with a dot, which becomes an `i` and
a dot, spells no name. -/
theorem policy_spellings_dotted :
    read "\u3000IsoLATE\u0085" = .ok .isolate ∧
      read "\u0130solate" = .error (.invalidPolicy "\u0130solate") := by
  have hspaced := (policy_spellings "\u3000IsoLATE\u0085").accepted .isolate
  have hdotted := (policy_spellings "\u0130solate").ascii '\u0130' (by decide) (by decide)
  exact ⟨hspaced.mpr ⟨['\u3000'], "IsoLATE".toList, ['\u0085'], by decide, by decide, rfl,
    by decide⟩, hdotted⟩

end PageRefresh.BroadcastPolicy
