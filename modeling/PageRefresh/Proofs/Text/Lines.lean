import Mathlib.Data.List.Basic
import PageRefresh.Text.Lines

/-!
Lines of what is printed.

A text without a line feed is printed as one line (`printedLines_of_not_mem`), and whatever a text
has in it, its lines with line feeds between them are that text again (`intercalate_printedLines`).
-/

namespace PageRefresh.Text

variable {cs : List Char} {texts : List String}

theorem splitLines_of_not_mem (hcs : '\n' ∉ cs) : splitLines cs = [cs] := by
  induction cs with
  | nil => rfl
  | cons c cs ih =>
      rw [List.mem_cons, not_or] at hcs
      obtain ⟨hc, hcs⟩ := hcs
      rw [splitLines, if_neg (Ne.symm hc), ih hcs]

theorem splitLines_ne_nil (cs : List Char) : splitLines cs ≠ [] := by
  cases cs with
  | nil => simp [splitLines]
  | cons c cs =>
      rw [splitLines]
      split
      · simp
      · split <;> simp

theorem intercalate_splitLines (cs : List Char) : ['\n'].intercalate (splitLines cs) = cs := by
  induction cs with
  | nil => rfl
  | cons c cs ih =>
      obtain ⟨line, rest, hlines⟩ := List.exists_cons_of_ne_nil (splitLines_ne_nil cs)
      rw [splitLines, hlines]
      rw [hlines] at ih
      split
      · rename_i hc
        rw [List.intercalate_cons_cons, ih, hc]
        rfl
      · rw [← ih]
        cases rest <;> simp [List.intercalate_cons_cons]

/-- Texts without line feeds have a line each. -/
theorem printedLines_of_not_mem (htexts : ∀ text ∈ texts, '\n' ∉ text.toList) :
    printedLines texts = texts := by
  induction texts with
  | nil => rfl
  | cons text texts ih =>
      obtain ⟨htext, hrest⟩ := List.forall_mem_cons.mp htexts
      rw [printedLines, List.flatMap_cons, splitLines_of_not_mem htext]
      simpa [printedLines] using ih hrest

/-- The lines of a text make up the text. -/
theorem intercalate_printedLines (text : String) :
    "\n".intercalate (printedLines [text]) = text := by
  rw [← String.toList_inj, String.toList_intercalate, printedLines, List.flatMap_singleton,
    List.map_map]
  have hsame : String.toList ∘ String.ofList = id := funext fun cs => String.toList_ofList
  rw [hsame, List.map_id]
  exact intercalate_splitLines text.toList

end PageRefresh.Text
