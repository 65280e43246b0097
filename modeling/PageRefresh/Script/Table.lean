import PageRefresh.Script.Trace

/-!
The trace as a table with a border.

Step and action have columns of fixed width; target and detail are as wide as their widest entry,
between 6 characters and 30 or 60. A cell that does not fit is cut and ends in three dots. Widths
count scalar values.
-/

namespace PageRefresh.Script

/-- A text that may have this many characters, cut to end in three dots if it has more. Where there
is no room for the dots they stick out. -/
def cutTo (width : Nat) (cs : List Char) : List Char :=
  if cs.length ≤ width then cs else cs.take (width - 3) ++ ['.', '.', '.']

/-- A text with spaces after it up to this many characters. -/
def padTo (width : Nat) (cs : List Char) : List Char :=
  cs ++ List.replicate (width - cs.length) ' '

/-- A text in a cell of a width. -/
def fit (text : String) (width : Nat) : String :=
  String.ofList (padTo width (cutTo width text.toList))

theorem cutTo_of_le {width : Nat} {cs : List Char} (h : cs.length ≤ width) : cutTo width cs = cs :=
  if_pos h

theorem length_padTo (width : Nat) (cs : List Char) :
    (padTo width cs).length = max width cs.length := by
  simp only [padTo, List.length_append, List.length_replicate]
  omega

/-- The widths of the four columns. -/
structure Columns where
  step : Nat
  action : Nat
  target : Nat
  detail : Nat
deriving DecidableEq, Repr

/-- The greatest of some lengths, or 6 without any, but within these bounds. -/
def columnWidth (lengths : List Nat) (low high : Nat) : Nat :=
  max low (min high (lengths.max?.getD 6))

/-- The widths that a trace calls for. -/
def Columns.of (entries : List TraceEntry) : Columns where
  step := 4
  action := 11
  target := columnWidth (entries.filterMap fun e => e.target.map String.length) 6 30
  detail := columnWidth (entries.map fun e => e.detail.length) 6 60

def Columns.row (c : Columns) (step action target detail : String) : String :=
  "│ " ++ fit step c.step ++ " │ " ++ fit action c.action ++ " │ " ++ fit target c.target ++
    " │ " ++ fit detail c.detail ++ " │"

/-- A horizontal line, with the characters at its left end, at the columns' borders and at its
right end. -/
def Columns.border (c : Columns) (left middle right : Char) : String :=
  let line (width : Nat) := List.replicate (width + 2) '─'
  String.ofList (left :: line c.step ++ middle :: line c.action ++ middle :: line c.target ++
    middle :: line c.detail ++ [right])

def Columns.entryRow (c : Columns) (e : TraceEntry) : String :=
  c.row (Nat.repr e.step) e.action (e.target.getD "-") e.detail

/-- The rows of the table of a trace; a trace without entries has no table. -/
def tableRows (entries : List TraceEntry) : List String :=
  match entries with
  | [] => ["No refresher activity."]
  | _ =>
      let c := Columns.of entries
      [c.border '┌' '┬' '┐', c.row "Step" "Action" "Target" "Detail", c.border '├' '┼' '┤'] ++
        entries.map c.entryRow ++ [c.border '└' '┴' '┘']

end PageRefresh.Script
