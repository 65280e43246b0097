import Mathlib.Data.List.Basic
import PageRefresh.Text.Blank
import PageRefresh.Text.Lowercase

/-!
Lower case and ASCII.

The lower case of an ASCII character is its small letter.  That of any other character holds a
character outside of ASCII again, with one exception: the Kelvin sign, which becomes the letter `k`
(`lowercaseChar_of_not_ascii`).  So a word of ASCII without that letter is the lower case of just
those texts that spell it with ASCII letters of either case (`lowercase_eq_iff`).
-/

namespace PageRefresh.Text

/-- Whether a character is one of the first 128. -/
def isAscii (c : Char) : Bool :=
  c.toNat < 128

variable {c : Char}

/-! ## Small letters -/

theorem toLower_of_not_capital (hc : ¬ (65 ≤ c.toNat ∧ c.toNat ≤ 90)) : c.toLower = c := by
  apply dif_neg
  rintro ⟨hfirst, hlast⟩
  exact hc ⟨UInt32.le_iff_toNat_le.mp hfirst, UInt32.le_iff_toNat_le.mp hlast⟩

theorem toLower_of_not_ascii (hc : isAscii c = false) : c.toLower = c := by
  simp only [isAscii, decide_eq_false_iff_not] at hc
  exact toLower_of_not_capital (by omega)

/-- White space has no case. -/
theorem toLower_of_isBlank (hc : isBlank c = true) : c.toLower = c := by
  simp only [isBlank, Bool.or_eq_true, Bool.and_eq_true, decide_eq_true_eq, beq_iff_eq] at hc
  exact toLower_of_not_capital (by omega)

/-! ## The table of lower case -/

/-- The row of the letters of ASCII. -/
def capitals : CaseRow :=
  ⟨65, 90, 1, 97⟩

theorem lowercaseRows_eq :
    ∃ others, lowercaseRows = capitals :: others ∧ ∀ row ∈ others, 128 ≤ row.first :=
  ⟨lowercaseRows.tail, rfl, by decide +kernel⟩

theorem capitals_covers (n : Nat) : capitals.covers n = true ↔ 65 ≤ n ∧ n ≤ 90 := by
  rw [CaseRow.covers, Bool.and_eq_true, Bool.and_eq_true, decide_eq_true_eq, decide_eq_true_eq]
  simp [capitals, Nat.mod_one]

theorem toLower_capital :
    ∀ n < 26, (Char.ofNat (n + 65)).toLower = Char.ofNat (n + 97) := by
  decide

theorem lowercaseChar_of_ascii (hc : isAscii c = true) : lowercaseChar c = [c.toLower] := by
  have hlt : c.toNat < 128 := by simpa [isAscii] using hc
  obtain ⟨others, hrows, hothers⟩ := lowercaseRows_eq
  rw [lowercaseChar, if_neg (by omega)]
  by_cases hcapital : 65 ≤ c.toNat ∧ c.toNat ≤ 90
  · have hfind : lowercaseRows.find? (·.covers c.toNat) = some capitals := by
      rw [hrows]
      exact List.find?_cons_of_pos ((capitals_covers _).mpr hcapital)
    have hsmall := toLower_capital (c.toNat - 65) (by omega)
    rw [Nat.sub_add_cancel hcapital.1, Char.ofNat_toNat] at hsmall
    rw [hfind, hsmall]
    rfl
  · have hfind : lowercaseRows.find? (·.covers c.toNat) = none := by
      rw [hrows, List.find?_eq_none]
      intro row hrow
      rcases List.mem_cons.mp hrow with rfl | hother
      · rwa [capitals_covers]
      · have hfirst := hothers row hother
        simp only [CaseRow.covers, Bool.and_eq_true, decide_eq_true_eq]
        omega
    rw [hfind, toLower_of_not_capital hcapital]

/-- Where the rows of the table lead: those that are not for ASCII lead out of it, but for one. -/
theorem lowercaseRows_image : ∀ row ∈ lowercaseRows,
    row.last < 128 ∨ (row.first = 0x212A ∧ row.last = 0x212A) ∨
      128 ≤ row.image ∧ (row.last - row.first + row.image < 0xD800 ∨
        0xE000 ≤ row.image ∧ row.last - row.first + row.image < 0x110000) := by
  decide +kernel

/-- No character but the Kelvin sign has a lower case in ASCII from outside of it. -/
theorem lowercaseChar_of_not_ascii (hc : isAscii c = false) :
    c = '\u212A' ∨ ∃ d ∈ lowercaseChar c, isAscii d = false := by
  have hlarge : 128 ≤ c.toNat := by simpa [isAscii] using hc
  rw [lowercaseChar]
  split
  · exact .inr ⟨'\u0307', by simp, rfl⟩
  · cases hfind : lowercaseRows.find? (·.covers c.toNat) with
    | none => exact .inr ⟨c, by simp, hc⟩
    | some row =>
        have hcovers := List.find?_some hfind
        simp only [CaseRow.covers, Bool.and_eq_true, decide_eq_true_eq] at hcovers
        obtain ⟨⟨hfirst, hlast⟩, -⟩ := hcovers
        rcases lowercaseRows_image row (List.mem_of_find?_eq_some hfind) with
          hascii | ⟨hfrom, hto⟩ | ⟨himage, hvalid⟩
        · omega
        · refine .inl (Char.toNat_inj.mp ?_)
          change c.toNat = 0x212A
          omega
        · refine .inr ⟨_, List.mem_singleton_self _, ?_⟩
          have hscalar : (c.toNat - row.first + row.image).isValidChar := by
            simp only [Nat.isValidChar]
            omega
          have himageNat : (Char.ofNat (c.toNat - row.first + row.image)).toNat =
              c.toNat - row.first + row.image := by
            rw [Char.ofNat, dif_pos hscalar]
            rfl
          rw [isAscii, himageNat, decide_eq_false_iff_not]
          omega

variable {cs word : List Char}

theorem lowercase_of_ascii (hcs : ∀ c ∈ cs, isAscii c = true) :
    lowercase cs = cs.map Char.toLower := by
  rw [lowercase, List.map_eq_flatMap]
  exact List.flatMap_congr fun c hc => lowercaseChar_of_ascii (hcs c hc)

/-- A text that becomes a word of ASCII without a `k` has been ASCII before. -/
theorem ascii_of_lowercase (hword : ∀ d ∈ word, isAscii d = true) (hk : 'k' ∉ word)
    (hcs : lowercase cs = word) : ∀ c ∈ cs, isAscii c = true := by
  intro c hc
  have hsub : ∀ d ∈ lowercaseChar c, d ∈ word := by
    intro d hd
    rw [← hcs]
    exact List.mem_flatMap.mpr ⟨c, hc, hd⟩
  by_contra hnot
  rcases lowercaseChar_of_not_ascii (Bool.not_eq_true _ ▸ hnot) with rfl | ⟨d, hd, hfalse⟩
  · exact hk (hsub 'k' (by decide +kernel))
  · rw [hword d (hsub d hd)] at hfalse
    contradiction

/-- A text that is a word of ASCII up to the case of its letters is ASCII itself. -/
theorem ascii_of_map_toLower (hword : ∀ d ∈ word, isAscii d = true)
    (hcs : cs.map Char.toLower = word) : ∀ c ∈ cs, isAscii c = true := by
  intro c hc
  by_contra hnot
  have hfalse : isAscii c = false := by simpa using hnot
  have hmem : c ∈ word := by
    rw [← hcs]
    exact List.mem_map.mpr ⟨c, hc, toLower_of_not_ascii hfalse⟩
  exact hnot (hword c hmem)

/-- The texts whose lower case is a word of ASCII without a `k`. -/
theorem lowercase_eq_iff (hword : ∀ d ∈ word, isAscii d = true) (hk : 'k' ∉ word) :
    lowercase cs = word ↔ cs.map Char.toLower = word := by
  constructor
  · intro hcs
    rw [← hcs, lowercase_of_ascii (ascii_of_lowercase hword hk hcs)]
  · intro hcs
    rw [← hcs, lowercase_of_ascii (ascii_of_map_toLower hword hcs)]

end PageRefresh.Text
