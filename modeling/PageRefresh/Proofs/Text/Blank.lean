import Mathlib.Data.List.DropRight
import PageRefresh.Text.Blank

/-!
What trimming leaves.

A text is white space, then a text without white space at its ends, then white space again, and
`trimBlanks` finds the part in the middle (`trimBlanks_eq_iff`).  Unless that part is empty there is
only one such way to take the text apart (`parts_unique`).
-/

namespace PageRefresh.Text

/-- Nothing but white space, or nothing at all. -/
def Blank (cs : List Char) : Prop :=
  ∀ c ∈ cs, isBlank c = true

/-- No white space at either end. -/
structure Trimmed (cs : List Char) : Prop where
  head : ∀ c ∈ cs.head?, isBlank c = false
  last : ∀ c ∈ cs.getLast?, isBlank c = false

instance (cs : List Char) : Decidable (Blank cs) :=
  decidable_of_iff (cs.all isBlank = true) List.all_eq_true

theorem trimmed_iff {cs : List Char} :
    Trimmed cs ↔ cs.head?.all (!isBlank ·) = true ∧ cs.getLast?.all (!isBlank ·) = true := by
  simp only [Option.all_eq_true, Bool.not_eq_true']
  exact ⟨fun htrimmed => ⟨htrimmed.head, htrimmed.last⟩, fun hends => ⟨hends.1, hends.2⟩⟩

instance (cs : List Char) : Decidable (Trimmed cs) :=
  decidable_of_iff _ trimmed_iff.symm

variable {before after cs : List Char}

theorem blank_takeWhile (cs : List Char) : Blank (cs.takeWhile isBlank) :=
  fun _ hc => List.mem_takeWhile_imp hc

theorem Trimmed.reverse (htrimmed : Trimmed cs) : Trimmed cs.reverse where
  head := by simpa using htrimmed.last
  last := by simpa using htrimmed.head

/-- White space before a trimmed text is all that is dropped from its front. -/
theorem dropWhile_before (hbefore : Blank before) (htrimmed : Trimmed cs) (hcs : cs ≠ []) :
    (before ++ cs ++ after).dropWhile isBlank = cs ++ after := by
  obtain ⟨c, rest, rfl⟩ := List.exists_cons_of_ne_nil hcs
  have hc : isBlank c = false := htrimmed.head c (by simp)
  rw [List.append_assoc, List.dropWhile_append_of_pos hbefore, List.cons_append,
    List.dropWhile_cons_of_neg (by simp [hc])]

theorem takeWhile_before (hbefore : Blank before) (htrimmed : Trimmed cs) (hcs : cs ≠ []) :
    (before ++ cs ++ after).takeWhile isBlank = before := by
  obtain ⟨c, rest, rfl⟩ := List.exists_cons_of_ne_nil hcs
  have hc : isBlank c = false := htrimmed.head c (by simp)
  rw [List.append_assoc, List.takeWhile_append_of_pos hbefore, List.cons_append,
    List.takeWhile_cons_of_neg (by simp [hc]), List.append_nil]

theorem trimBlanks_of_blank (hcs : Blank cs) : trimBlanks cs = [] := by
  have hdrop : cs.dropWhile isBlank = [] := List.dropWhile_eq_nil_iff.mpr hcs
  rw [trimBlanks, hdrop]
  rfl

/-- White space around a trimmed text is all that trimming takes away. -/
theorem trimBlanks_parts (hbefore : Blank before) (hafter : Blank after) (htrimmed : Trimmed cs) :
    trimBlanks (before ++ cs ++ after) = cs := by
  by_cases hcs : cs = []
  · subst hcs
    apply trimBlanks_of_blank
    simpa [Blank, or_imp, forall_and] using ⟨hbefore, hafter⟩
  · have hback : Blank after.reverse := fun c hc => hafter c (List.mem_reverse.mp hc)
    have hend : (after.reverse ++ cs.reverse ++ []).dropWhile isBlank = cs.reverse ++ [] :=
      dropWhile_before hback htrimmed.reverse (by simpa using hcs)
    rw [List.append_nil, List.append_nil] at hend
    rw [trimBlanks, dropWhile_before hbefore htrimmed hcs, List.reverse_append, hend,
      List.reverse_reverse]

/-- Every text has such parts. -/
theorem exists_parts (cs : List Char) :
    ∃ before after, Blank before ∧ Blank after ∧ Trimmed (trimBlanks cs) ∧
      cs = before ++ trimBlanks cs ++ after := by
  have htrim : trimBlanks cs = (cs.dropWhile isBlank).rdropWhile isBlank := rfl
  refine ⟨cs.takeWhile isBlank, (cs.dropWhile isBlank).rtakeWhile isBlank, blank_takeWhile cs,
    fun _ hc => List.mem_rtakeWhile_imp hc, ⟨?_, ?_⟩, ?_⟩
  · intro c hc
    have hprefix : trimBlanks cs <+: cs.dropWhile isBlank := List.rdropWhile_prefix _ _
    obtain ⟨rest, hrest⟩ : ∃ rest, trimBlanks cs = c :: rest := by
      cases htrimmed : trimBlanks cs with
      | nil => simp [htrimmed] at hc
      | cons c' rest => exact ⟨rest, by simpa [htrimmed] using hc⟩
    obtain ⟨later, hlater⟩ := hprefix
    have hhead := List.head?_dropWhile_not isBlank cs
    rw [← hlater, hrest] at hhead
    simpa using hhead
  · intro c hc
    obtain ⟨hne, rfl⟩ := List.mem_getLast?_eq_getLast hc
    rw [htrim] at hne
    simpa [htrim] using List.rdropWhile_last_not isBlank (cs.dropWhile isBlank) hne
  · rw [htrim, List.append_assoc, List.rdropWhile_append_rtakeWhile,
      List.takeWhile_append_dropWhile]

theorem trimBlanks_eq_iff {trimmed : List Char} :
    trimBlanks cs = trimmed ↔
      ∃ before after, Blank before ∧ Blank after ∧ Trimmed trimmed ∧
        cs = before ++ trimmed ++ after := by
  constructor
  · rintro rfl
    exact exists_parts cs
  · rintro ⟨before, after, hbefore, hafter, htrimmed, rfl⟩
    exact trimBlanks_parts hbefore hafter htrimmed

/-- White space around a trimmed text that is not empty is found again. -/
theorem parts_unique {before' after' cs' : List Char} (hcs : cs ≠ []) (hbefore : Blank before)
    (hafter : Blank after) (htrimmed : Trimmed cs) (hbefore' : Blank before')
    (hafter' : Blank after') (htrimmed' : Trimmed cs')
    (hsame : before ++ cs ++ after = before' ++ cs' ++ after') :
    before = before' ∧ cs = cs' ∧ after = after' := by
  obtain rfl : cs = cs' := by
    rw [← trimBlanks_parts hbefore hafter htrimmed, hsame,
      trimBlanks_parts hbefore' hafter' htrimmed']
  have hfirst : (before ++ cs ++ after).takeWhile isBlank = before :=
    takeWhile_before hbefore htrimmed hcs
  obtain rfl : before' = before := by
    rw [← hfirst, hsame, takeWhile_before hbefore' htrimmed' hcs]
  exact ⟨rfl, rfl, List.append_cancel_left hsame⟩

end PageRefresh.Text
