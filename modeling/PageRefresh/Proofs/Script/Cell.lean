import PageRefresh.Proofs.Script.Table

/-!
A text in a cell of any width.

A cell shows all of a text if it has room for it, and otherwise the beginning of the text and dots,
and it is as wide as it is meant to be (`Fits`).  There are always three dots where a text is cut.
So what a cell shows fits, unless the text has to be cut and the cell is too narrow for the dots.
-/

namespace PageRefresh.Script

/-- What a cell of this width should show of a text. -/
structure Fits (width : Nat) (text cell : List Char) : Prop where
  length : cell.length = width
  all : text.length ≤ width → ShowsAll text cell
  cut : width < text.length →
    ∃ beginning dots, beginning <+: text ∧ 0 < dots ∧ cell = beginning ++ List.replicate dots '.'

variable {width : Nat} {text : String}

theorem toList_fit (text : String) (width : Nat) :
    (fit text width).toList = padTo width (cutTo width text.toList) :=
  String.toList_ofList

/-- A text that is short enough is shown in full, however narrow the cell is. -/
theorem fits_of_short (hshort : text.length ≤ width) :
    Fits width text.toList (fit text width).toList := by
  rw [← String.length_toList] at hshort
  rw [toList_fit, cutTo_of_le hshort]
  refine ⟨?_, fun _ => ⟨_, rfl⟩, fun hlong => absurd hshort (Nat.not_le_of_lt hlong)⟩
  rw [length_padTo]
  exact Nat.max_eq_left hshort

/-- A cell that has room for three dots can cut every text. -/
theorem fits_of_wide (hwide : 3 ≤ width) (text : String) :
    Fits width text.toList (fit text width).toList := by
  have hcell := fit_cellOf_cap hwide text
  rw [toList_fit]
  refine ⟨length_fit hwide _, fun hshort => hcell.all.mpr ?_, fun hlong => ?_⟩
  · rwa [String.length_toList] at hshort
  · rw [String.length_toList] at hlong
    exact ⟨_, 3, List.take_prefix (width - 3) text.toList, by decide, hcell.cut hlong⟩

/-- In a narrower cell nothing is left of a text that has to be cut. -/
theorem fit_of_narrow (hlong : width < text.length) (hnarrow : width < 3) :
    fit text width = "..." := by
  have hnot : ¬ text.toList.length ≤ width := by
    rw [String.length_toList]
    exact Nat.not_le_of_lt hlong
  have hnone : width - 3 = 0 := Nat.sub_eq_zero_of_le (Nat.le_of_lt hnarrow)
  have hroom : width - ['.', '.', '.'].length = 0 := hnone
  rw [fit, cutTo, if_neg hnot, hnone, List.take_zero, List.nil_append, padTo, hroom,
    List.replicate_zero, List.append_nil]

/-- Every text fits in a cell that has room for it or for three dots, and in no other; the dots are
all that the others show, and stick out. -/
theorem fit_fits_iff (text : String) (width : Nat) :
    (Fits width text.toList (fit text width).toList ↔ text.length ≤ width ∨ 3 ≤ width) ∧
      (Fits width text.toList (fit text width).toList ∨ fit text width = "...") := by
  by_cases hroom : text.length ≤ width ∨ 3 ≤ width
  · have hfits : Fits width text.toList (fit text width).toList := by
      rcases hroom with hshort | hwide
      · exact fits_of_short hshort
      · exact fits_of_wide hwide text
    exact ⟨iff_of_true hfits hroom, .inl hfits⟩
  · rw [not_or, Nat.not_le, Nat.not_le] at hroom
    have hdots : fit text width = "..." := fit_of_narrow hroom.1 hroom.2
    refine ⟨⟨fun hfits => ?_, fun h => by omega⟩, .inr hdots⟩
    have hlength : 3 = width := by
      rw [← hfits.length, hdots]
      rfl
    omega

/-- A cell of one character has room for one dot. -/
theorem fit_overflows_one :
    fit "stop" 1 = "..." ∧ (∀ cell, Fits 1 "stop".toList cell ↔ cell = ['.']) ∧
      ¬ Fits 1 "stop".toList (fit "stop" 1).toList := by
  have hdots : fit "stop" 1 = "..." := by decide
  refine ⟨hdots, fun cell => ⟨fun hfits => ?_, ?_⟩, fun hfits => ?_⟩
  · obtain ⟨beginning, dots, -, hpos, rfl⟩ := hfits.cut (by decide)
    have hlength := hfits.length
    rw [List.length_append, List.length_replicate] at hlength
    obtain rfl : beginning = [] := List.eq_nil_of_length_eq_zero (by omega)
    obtain rfl : dots = 1 := by omega
    rfl
  · rintro rfl
    exact ⟨rfl, fun hshort => absurd hshort (by decide), fun _ =>
      ⟨[], 1, List.nil_prefix, by decide, rfl⟩⟩
  · have hlength := hfits.length
    rw [hdots] at hlength
    contradiction

end PageRefresh.Script
