import Mathlib.Data.List.Forall2
import PageRefresh.Proofs.Script.Recorded
import PageRefresh.Proofs.Text.Digit
import PageRefresh.Proofs.Text.Lines
import PageRefresh.Script.Table

/-!
The geometry of the table of a trace.

A row is four cells with borders between them, each as wide as its column (`Cells`).  A column is
never wider than its cap, and as wide as its cap wherever one of its texts is too long for it; so
whether a text is cut is a matter of its own length and its column's cap, although the width of the
column is a matter of all entries (`fit_cellOf`).
-/

namespace PageRefresh.Script

open PageRefresh.Text

/-! ## Cells -/

/-- A cell holds all of a text, and spaces after it. -/
def ShowsAll (text cell : List Char) : Prop :=
  ∃ n, cell = text ++ List.replicate n ' '

/-- The cell of a text in a column with this cap. -/
structure CellOf (cap : Nat) (text : String) (cell : List Char) : Prop where
  all : ShowsAll text.toList cell ↔ text.length ≤ cap
  cut : cap < text.length → cell = text.toList.take (cap - 3) ++ ['.', '.', '.']

theorem length_cutTo_le {width : Nat} (hwidth : 3 ≤ width) (cs : List Char) :
    (cutTo width cs).length ≤ width := by
  rw [cutTo]
  split
  · assumption
  · simp only [List.length_append, List.length_take, List.length_cons, List.length_nil]
    omega

theorem length_fit {width : Nat} (hwidth : 3 ≤ width) (cs : List Char) :
    (padTo width (cutTo width cs)).length = width := by
  rw [length_padTo]
  exact Nat.max_eq_left (length_cutTo_le hwidth cs)

/-- What a cell shows of a text, in a column that has room for it unless it is at its cap. -/
theorem fit_cellOf {width cap : Nat} {text : String} (hwidth : 3 ≤ width)
    (hroom : text.length ≤ cap → text.length ≤ width) (hcap : cap < text.length → width = cap) :
    CellOf cap text (padTo width (cutTo width text.toList)) where
  all := by
    constructor
    · rintro ⟨n, hcell⟩
      have hlength := congrArg List.length hcell
      rw [length_fit hwidth, List.length_append, String.length_toList] at hlength
      by_contra hlong
      have hatCap := hcap (Nat.lt_of_not_le hlong)
      omega
    · intro hshort
      have hfits : text.toList.length ≤ width := by
        rw [String.length_toList]
        exact hroom hshort
      exact ⟨_, by rw [cutTo_of_le hfits, padTo]⟩
  cut := by
    intro hlong
    obtain rfl := hcap hlong
    have hnot : ¬ text.toList.length ≤ width := by
      rw [String.length_toList]
      exact Nat.not_le_of_lt hlong
    have hlength : (text.toList.take (width - 3) ++ ['.', '.', '.']).length = width := by
      simp only [List.length_append, List.length_take, List.length_cons, List.length_nil]
      omega
    rw [cutTo, if_neg hnot, padTo, hlength, Nat.sub_self, List.replicate_zero, List.append_nil]

theorem fit_cellOf_cap {cap : Nat} (hcap : 3 ≤ cap) (text : String) :
    CellOf cap text (padTo cap (cutTo cap text.toList)) :=
  fit_cellOf hcap id fun _ => rfl

/-! ## Rows -/

/-- The cells of a row. -/
structure Cells where
  step : List Char
  action : List Char
  target : List Char
  detail : List Char
deriving DecidableEq

namespace Cells

/-- A row of these cells. -/
def text (c : Cells) : String :=
  "│ " ++ String.ofList c.step ++ " │ " ++ String.ofList c.action ++ " │ " ++
    String.ofList c.target ++ " │ " ++ String.ofList c.detail ++ " │"

/-- As wide as columns of which the last two have these widths. -/
structure Fill (c : Cells) (target detail : Nat) : Prop where
  step : c.step.length = 4
  action : c.action.length = 11
  target : c.target.length = target
  detail : c.detail.length = detail

/-- The cells of four texts. -/
structure Show (c : Cells) (step action target detail : String) : Prop where
  step : CellOf 4 step c.step
  action : CellOf 11 action c.action
  target : CellOf 30 target c.target
  detail : CellOf 60 detail c.detail

/-- The cells of an entry. -/
def ShowEntry (e : TraceEntry) (c : Cells) : Prop :=
  c.Show (Nat.repr e.step) e.action (e.target.getD "-") e.detail

theorem Fill.length_text {c : Cells} {target detail : Nat} (hfill : c.Fill target detail) :
    c.text.length = 28 + target + detail := by
  have hleft : "│ ".length = 2 := by decide
  have hmiddle : " │ ".length = 3 := by decide
  have hright : " │".length = 2 := by decide
  simp only [text, String.length_append, String.length_ofList, hleft, hmiddle, hright, hfill.step,
    hfill.action, hfill.target, hfill.detail]
  omega

end Cells

namespace Columns

def cells (c : Columns) (step action target detail : String) : Cells where
  step := padTo c.step (cutTo c.step step.toList)
  action := padTo c.action (cutTo c.action action.toList)
  target := padTo c.target (cutTo c.target target.toList)
  detail := padTo c.detail (cutTo c.detail detail.toList)

def entryCells (c : Columns) (e : TraceEntry) : Cells :=
  c.cells (Nat.repr e.step) e.action (e.target.getD "-") e.detail

/-- The characters that borders are drawn with. -/
def strokes : List Char :=
  "┌┬┐├┼┤└┴┘─".toList

theorem mem_border {c : Columns} {left middle right d : Char}
    (hd : d ∈ (c.border left middle right).toList) : d ∈ [left, middle, right, '─'] := by
  simp only [border, String.toList_ofList, List.mem_append, List.mem_cons, List.mem_replicate,
    List.not_mem_nil, or_false] at hd ⊢
  tauto

/-- The three borders of a table. -/
def borders (c : Columns) : List String :=
  [c.border '┌' '┬' '┐', c.border '├' '┼' '┤', c.border '└' '┴' '┘']

theorem mem_strokes {c : Columns} {border : String} (hborder : border ∈ c.borders) {d : Char}
    (hd : d ∈ border.toList) : d ∈ strokes := by
  have htop : ['┌', '┬', '┐', '─'] ⊆ strokes := by decide
  have hline : ['├', '┼', '┤', '─'] ⊆ strokes := by decide
  have hbottom : ['└', '┴', '┘', '─'] ⊆ strokes := by decide
  simp only [borders, List.mem_cons, List.not_mem_nil, or_false] at hborder
  rcases hborder with rfl | rfl | rfl
  · exact htop (mem_border hd)
  · exact hline (mem_border hd)
  · exact hbottom (mem_border hd)

end Columns

/-- A table: three borders, with a header between the first two and the rows below them. -/
structure Table where
  top : String
  header : Cells
  line : String
  rows : List Cells
  bottom : String

namespace Table

def lines (t : Table) : List String :=
  [t.top, t.header.text, t.line] ++ t.rows.map Cells.text ++ [t.bottom]

/-- A table of these entries: it names the columns and has a row for each entry, in order. -/
structure Shows (t : Table) (entries : List TraceEntry) : Prop where
  borders : ∀ border ∈ [t.top, t.line, t.bottom], ∀ c ∈ border.toList, c ∈ "┌┬┐├┼┤└┴┘─".toList
  header : t.header.Show "Step" "Action" "Target" "Detail"
  rows : List.Forall₂ Cells.ShowEntry entries t.rows

/-- All lines are as wide as each other, and so are all cells of a column. -/
structure Aligned (t : Table) (target detail : Nat) : Prop where
  targetWidth : 6 ≤ target ∧ target ≤ 30
  detailWidth : 6 ≤ detail ∧ detail ≤ 60
  lines : ∀ line ∈ t.lines, line.length = 28 + target + detail
  cells : ∀ cells ∈ t.header :: t.rows, cells.Fill target detail

/-- The table of a trace that has entries. -/
def ofEntries (entries : List TraceEntry) : Table :=
  let c := Columns.of entries
  { top := c.border '┌' '┬' '┐'
    header := c.cells "Step" "Action" "Target" "Detail"
    line := c.border '├' '┼' '┤'
    rows := entries.map c.entryCells
    bottom := c.border '└' '┴' '┘' }

end Table

theorem tableRows_eq {entries : List TraceEntry} (hentries : entries ≠ []) :
    tableRows entries = (Table.ofEntries entries).lines := by
  obtain ⟨e, rest, rfl⟩ := List.exists_cons_of_ne_nil hentries
  rw [Table.lines, Table.ofEntries, List.map_map]
  rfl

/-- What holds of borders, of the header and of the rows of entries holds of the whole table. -/
theorem forall_mem_tableRows {entries : List TraceEntry} (hentries : entries ≠ [])
    {p : String → Prop} (hborders : ∀ border ∈ (Columns.of entries).borders, p border)
    (hheader : p ((Columns.of entries).row "Step" "Action" "Target" "Detail"))
    (hrows : ∀ e ∈ entries, p ((Columns.of entries).entryRow e)) :
    ∀ row ∈ tableRows entries, p row := by
  intro row hrow
  simp only [Columns.borders, List.forall_mem_cons] at hborders
  obtain ⟨htop, hline, hbottom, -⟩ := hborders
  simp only [tableRows_eq hentries, Table.lines, Table.ofEntries, List.mem_append, List.mem_cons,
    List.not_mem_nil, or_false, List.mem_map] at hrow
  rcases hrow with ((rfl | rfl | rfl) | ⟨cells, ⟨e, he, rfl⟩, rfl⟩) | rfl
  · exact htop
  · exact hheader
  · exact hline
  · exact hrows e he
  · exact hbottom

/-! ## The widths of columns -/

section Width

variable {lengths : List Nat} {low high n : Nat}

theorem le_columnWidth : low ≤ columnWidth lengths low high :=
  Nat.le_max_left _ _

theorem columnWidth_le (hbounds : low ≤ high) : columnWidth lengths low high ≤ high := by
  simp only [columnWidth]
  omega

/-- There is room for everything that may have room. -/
theorem le_columnWidth_of_mem (hmem : n ∈ lengths) (hn : n ≤ high) :
    n ≤ columnWidth lengths low high := by
  have hmax : n ≤ lengths.max?.getD 6 := List.le_max?_getD_of_mem hmem
  simp only [columnWidth]
  omega

theorem columnWidth_of_mem (hbounds : low ≤ high) (hmem : n ∈ lengths) (hn : high < n) :
    columnWidth lengths low high = high := by
  have hmax : n ≤ lengths.max?.getD 6 := List.le_max?_getD_of_mem hmem
  simp only [columnWidth]
  omega

end Width

variable {entries : List TraceEntry}

theorem Columns.of_bounds (entries : List TraceEntry) :
    (6 ≤ (Columns.of entries).target ∧ (Columns.of entries).target ≤ 30) ∧
      6 ≤ (Columns.of entries).detail ∧ (Columns.of entries).detail ≤ 60 :=
  ⟨⟨le_columnWidth, columnWidth_le (by decide)⟩, le_columnWidth, columnWidth_le (by decide)⟩

theorem Columns.length_border (entries : List TraceEntry) (left middle right : Char) :
    ((Columns.of entries).border left middle right).length =
      28 + (Columns.of entries).target + (Columns.of entries).detail := by
  have hstep : (Columns.of entries).step = 4 := rfl
  have haction : (Columns.of entries).action = 11 := rfl
  simp only [Columns.border, String.length_ofList, List.length_append, List.length_cons,
    List.length_replicate, List.length_nil, hstep, haction]
  omega

theorem Columns.cells_fill (entries : List TraceEntry) (step action target detail : String) :
    ((Columns.of entries).cells step action target detail).Fill (Columns.of entries).target
      (Columns.of entries).detail := by
  obtain ⟨⟨htarget, -⟩, hdetail, -⟩ := Columns.of_bounds entries
  exact ⟨length_fit (by decide : 3 ≤ 4) _, length_fit (by decide : 3 ≤ 11) _,
    length_fit (by omega) _, length_fit (by omega) _⟩

theorem Columns.cells_header (entries : List TraceEntry) :
    ((Columns.of entries).cells "Step" "Action" "Target" "Detail").Show
      "Step" "Action" "Target" "Detail" := by
  obtain ⟨⟨htarget, -⟩, hdetail, -⟩ := Columns.of_bounds entries
  have hlengths : "Target".length = 6 ∧ "Detail".length = 6 := by decide
  exact ⟨fit_cellOf_cap (by decide) _, fit_cellOf_cap (by decide) _,
    fit_cellOf (by omega) (by omega) (by omega), fit_cellOf (by omega) (by omega) (by omega)⟩

theorem Columns.target_room {e : TraceEntry} (he : e ∈ entries) :
    ((e.target.getD "-").length ≤ 30 →
        (e.target.getD "-").length ≤ (Columns.of entries).target) ∧
      (30 < (e.target.getD "-").length → (Columns.of entries).target = 30) := by
  cases htarget : e.target with
  | none =>
      obtain ⟨⟨hwide, -⟩, -⟩ := Columns.of_bounds entries
      have hdash : "-".length = 1 := by decide
      simp only [Option.getD_none, hdash]
      omega
  | some target =>
      have hmem : target.length ∈ entries.filterMap fun e => e.target.map String.length :=
        List.mem_filterMap.mpr ⟨e, he, by rw [htarget]; rfl⟩
      exact ⟨le_columnWidth_of_mem hmem, columnWidth_of_mem (by decide) hmem⟩

theorem Columns.detail_room {e : TraceEntry} (he : e ∈ entries) :
    (e.detail.length ≤ 60 → e.detail.length ≤ (Columns.of entries).detail) ∧
      (60 < e.detail.length → (Columns.of entries).detail = 60) := by
  have hmem : e.detail.length ∈ entries.map fun e => e.detail.length :=
    List.mem_map.mpr ⟨e, he, rfl⟩
  exact ⟨le_columnWidth_of_mem hmem, columnWidth_of_mem (by decide) hmem⟩

theorem Columns.cells_entry {e : TraceEntry} (he : e ∈ entries) :
    ((Columns.of entries).entryCells e).ShowEntry e := by
  obtain ⟨⟨htarget, -⟩, hdetail, -⟩ := Columns.of_bounds entries
  obtain ⟨htargetRoom, htargetCap⟩ := Columns.target_room he
  obtain ⟨hdetailRoom, hdetailCap⟩ := Columns.detail_room he
  exact ⟨fit_cellOf_cap (by decide) _, fit_cellOf_cap (by decide) _,
    fit_cellOf (by omega) htargetRoom htargetCap, fit_cellOf (by omega) hdetailRoom hdetailCap⟩

/-! ## Lines -/

theorem lineFeed_not_mem_fit {cs : List Char} (hcs : '\n' ∉ cs) (width : Nat) :
    '\n' ∉ padTo width (cutTo width cs) := by
  have hcut : '\n' ∉ cutTo width cs := by
    rw [cutTo]
    split
    · exact hcs
    · have htake : '\n' ∉ cs.take (width - 3) := fun hmem => hcs (List.mem_of_mem_take hmem)
      simp [htake]
  simp [padTo, List.mem_replicate, hcut]

theorem lineFeed_not_mem_row (c : Columns) {step action target detail : String}
    (hstep : '\n' ∉ step.toList) (haction : '\n' ∉ action.toList)
    (htarget : '\n' ∉ target.toList) (hdetail : '\n' ∉ detail.toList) :
    '\n' ∉ (c.row step action target detail).toList := by
  simp [Columns.row, fit, lineFeed_not_mem_fit hstep, lineFeed_not_mem_fit haction,
    lineFeed_not_mem_fit htarget, lineFeed_not_mem_fit hdetail]

/-- An entry whose texts have no line feed in them. -/
structure TraceEntry.OnOneLine (e : TraceEntry) : Prop where
  action : '\n' ∉ e.action.toList
  target : ∀ target ∈ e.target, '\n' ∉ target.toList
  detail : '\n' ∉ e.detail.toList

theorem lineFeed_not_mem_repr (n : Nat) : '\n' ∉ (Nat.repr n).toList := by
  intro hmem
  rw [toList_repr] at hmem
  have hdigit : '\n'.isDigit = true := isDigit_of_mem_digits hmem
  contradiction

theorem lineFeed_not_mem_tableRows (hentries : entries ≠ [])
    (hlines : ∀ e ∈ entries, e.OnOneLine) : ∀ row ∈ tableRows entries, '\n' ∉ row.toList := by
  refine forall_mem_tableRows hentries ?_ ?_ ?_
  · intro border hborder hmem
    have hnone : '\n' ∉ Columns.strokes := by decide
    exact hnone (Columns.mem_strokes hborder hmem)
  · exact lineFeed_not_mem_row _ (by decide) (by decide) (by decide) (by decide)
  · intro e he
    obtain ⟨haction, htarget, hdetail⟩ := hlines e he
    apply lineFeed_not_mem_row _ (lineFeed_not_mem_repr _) haction _ hdetail
    cases hname : e.target with
    | none => decide
    | some target => exact htarget target hname

/-! ## Actions -/

theorem Step.length_actions (step : Step) : ∀ action ∈ step.actions, action.length ≤ 11 := by
  rcases step with ⟨verb, name⟩ | verb <;> cases verb <;> simp only [Step.actions] <;> decide

/-- Every action of a trace has room in its column. -/
theorem length_action_le {policy : BroadcastPolicy} {interval : Duration} {now : Instant}
    {script : List Step} {e : TraceEntry} (he : e ∈ (simulate policy interval now script).trace) :
    e.action.length ≤ 11 := by
  rcases Simulation.run_actions _ script he with hbefore | ⟨step, -, haction⟩
  · contradiction
  · exact step.length_actions _ haction

/-! ## Tables -/

theorem length_of_mem_tableRows (hentries : entries ≠ []) :
    ∀ row ∈ tableRows entries,
      row.length = 28 + (Columns.of entries).target + (Columns.of entries).detail := by
  refine forall_mem_tableRows hentries ?_ ?_ ?_
  · intro border hborder
    simp only [Columns.borders, List.mem_cons, List.not_mem_nil, or_false] at hborder
    rcases hborder with rfl | rfl | rfl <;> exact Columns.length_border entries ..
  · exact (Columns.cells_fill entries ..).length_text
  · exact fun e _ => (Columns.cells_fill entries ..).length_text

theorem length_tableRows (hentries : entries ≠ []) :
    (tableRows entries).length = entries.length + 4 := by
  simp [tableRows_eq hentries, Table.lines, Table.ofEntries]

/-- A trace that has entries is printed as a table of them. -/
theorem Table.ofEntries_shows (entries : List TraceEntry) :
    (Table.ofEntries entries).Shows entries where
  borders _ hborder _ := Columns.mem_strokes hborder
  header := Columns.cells_header entries
  rows := List.forall₂_map_right_iff.mpr (List.forall₂_same.mpr fun _ he => Columns.cells_entry he)

theorem Table.ofEntries_aligned (hentries : entries ≠ []) :
    (Table.ofEntries entries).Aligned (Columns.of entries).target (Columns.of entries).detail where
  targetWidth := (Columns.of_bounds entries).1
  detailWidth := (Columns.of_bounds entries).2
  lines := by
    rw [← tableRows_eq hentries]
    exact length_of_mem_tableRows hentries
  cells := by
    refine List.forall_mem_cons.mpr ⟨Columns.cells_fill entries .., ?_⟩
    exact List.forall_mem_map.mpr fun e _ => Columns.cells_fill entries ..

/-- The geometry of every table.  Its texts are lines, unless a line feed in an entry makes more of
a row, and the actions of a script are shown in full. -/
theorem table_geometry (hentries : entries ≠ []) :
    let target := (Columns.of entries).target
    let detail := (Columns.of entries).detail
    ∃ t : Table, tableRows entries = t.lines ∧ t.Shows entries ∧ t.Aligned target detail ∧
      ((∀ e ∈ entries, e.OnOneLine) →
        (printedLines t.lines).length = entries.length + 4 ∧
          ∀ line ∈ printedLines t.lines, line.length = 28 + target + detail) ∧
      ∀ policy interval now script, entries = (simulate policy interval now script).trace →
        List.Forall₂ (fun e cells => ShowsAll e.action.toList cells.action) entries t.rows := by
  intro target detail
  refine ⟨.ofEntries entries, tableRows_eq hentries, Table.ofEntries_shows entries,
    Table.ofEntries_aligned hentries, ?_, ?_⟩
  · intro hlines
    rw [← tableRows_eq hentries,
      printedLines_of_not_mem (lineFeed_not_mem_tableRows hentries hlines)]
    exact ⟨length_tableRows hentries, length_of_mem_tableRows hentries⟩
  · rintro policy interval now script rfl
    refine List.forall₂_map_right_iff.mpr (List.forall₂_same.mpr fun e he => ?_)
    exact (Columns.cells_entry he).action.all.mpr (length_action_le he)

/-- A number, a target and a detail that have to be cut, and an entry without a target. -/
def crowded : List TraceEntry :=
  [⟨12345, "stop", some "un tableau de bord très détaillé", "stopped"⟩,
    ⟨12346, "error", none,
      "Refresh of fragment 'un tableau de bord très détaillé' could not be stopped"⟩]

theorem table_geometry_crowded :
    crowded ≠ [] ∧ (printedLines (tableRows crowded)).length = 6 ∧
      ∀ line ∈ printedLines (tableRows crowded), line.length = 118 := by
  have hentries : crowded ≠ [] := by simp [crowded]
  obtain ⟨t, hrows, -, -, hlines, -⟩ := table_geometry hentries
  have hclear : ∀ e ∈ crowded, e.OnOneLine := by
    simp only [crowded, List.forall_mem_cons, List.not_mem_nil, IsEmpty.forall_iff, implies_true,
      and_true]
    exact ⟨⟨by decide, by simp, by decide⟩, ⟨by decide, by simp, by decide⟩⟩
  obtain ⟨hcount, hlength⟩ := hlines hclear
  rw [← hrows] at hcount hlength
  have hwidths : (Columns.of crowded).target = 30 ∧ (Columns.of crowded).detail = 60 := by
    decide +kernel
  rw [hwidths.1, hwidths.2] at hlength
  exact ⟨hentries, hcount, hlength⟩

/-- Where a cell ends in dots its text goes on. -/
example : (Columns.of crowded).entryCells ⟨12345, "stop", none, "stopped"⟩ =
    ⟨"1...".toList, "stop       ".toList, padTo 30 ['-'], padTo 60 "stopped".toList⟩ := by
  decide +kernel

end PageRefresh.Script
