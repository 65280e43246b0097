import PageRefresh.Toml.Syntax

/-!
The tables that the statements of a TOML document make.

No table may be written twice, but a table may be added to in some ways, and for that each table
remembers how it came about (`Shape`). A dotted key may add to a table that dotted keys made, a
header may name a table that so far was only passed through on the way to another one, and a header
may pass through any table, and through the last table of an array.
-/

namespace PageRefresh.Toml

/-- How a table came about. -/
inductive Shape where
  /-- It was written out. -/
  | explicit
  /-- A header passed through it. -/
  | implied
  /-- A dotted key passed through it. -/
  | dotted
deriving DecidableEq, Repr

/-- A value of a document. -/
inductive Node where
  | string (s : String)
  | scalar (s : Scalar)
  | array (items : List Node)
  /-- A table in braces, or one that a dotted key made inside of one. -/
  | inline (shape : Shape) (members : List (String × Node))
  | table (shape : Shape) (members : List (String × Node))
  /-- An array of the tables that headers in double brackets opened. -/
  | tables (items : List (List (String × Node)))

/-- The entries of a table, in the order they were made. -/
abbrev Members := List (String × Node)

namespace Members

def get? (members : Members) (key : String) : Option Node :=
  members.lookup key

/-- Give a key a value, in the place of the one it has. -/
def set (members : Members) (key : String) (node : Node) : Members :=
  members.filter (·.1 != key) ++ [(key, node)]

/-- Add an entry under a key that has no value. -/
def insert? (members : Members) (key : String) (node : Node) : Option Members :=
  match members.get? key with
  | none => some (members ++ [(key, node)])
  | some _ => none

/-- Add an entry to a table in braces, through the tables that the dots of its key name. -/
def insertInline? (node : Node) (key : String) : List String → Members → Option Members
  | [], members => members.insert? key node
  | parent :: parents, members =>
      match members.get? parent with
      | none =>
          (insertInline? node key parents []).map fun inner =>
            members ++ [(parent, .inline .dotted inner)]
      | some (.inline .dotted inner) =>
          (insertInline? node key parents inner).map fun inner =>
            members.set parent (.inline .dotted inner)
      | some _ => none

/-- Add an entry to a table, through the tables that the dots of its key name. Only a table that
dotted keys made may get it, though others may be passed through. -/
def insertDotted? (node : Node) (key : String) : List String → Members → Option Members
  | [], members => members.insert? key node
  | parent :: parents, members =>
      match members.get? parent with
      | none =>
          (insertDotted? node key parents []).map fun inner =>
            members ++ [(parent, .table .dotted inner)]
      | some (.table .dotted inner) =>
          (insertDotted? node key parents inner).map fun inner =>
            members.set parent (.table .dotted inner)
      | some (.table .implied inner) =>
          if parents.isEmpty then none
          else
            (insertDotted? node key parents inner).map fun inner =>
              members.set parent (.table .implied inner)
      | some (.tables items) =>
          if parents.isEmpty then none
          else
            (insertDotted? node key parents (items.getLast?.getD [])).map fun inner =>
              members.set parent (.tables (items.dropLast ++ [inner]))
      | some _ => none

/-- Change the table at the end of a header's way, making the tables on the way that are not
there. -/
def alterAt? {α : Type} (change : Members → Option (α × Members)) :
    List String → Members → Option (α × Members)
  | [], members => change members
  | parent :: parents, members =>
      match members.get? parent with
      | none =>
          (alterAt? change parents []).map fun (a, inner) =>
            (a, members ++ [(parent, .table .implied inner)])
      | some (.table shape inner) =>
          (alterAt? change parents inner).map fun (a, inner) =>
            (a, members.set parent (.table shape inner))
      | some (.tables items) =>
          (alterAt? change parents (items.getLast?.getD [])).map fun (a, inner) =>
            (a, members.set parent (.tables (items.dropLast ++ [inner])))
      | some _ => none

end Members

mutual

/-- The value that a written value denotes, if its tables agree with themselves. -/
def Value.toNode? : Value → Option Node
  | .string s => some (.string s)
  | .scalar s => some (.scalar s)
  | .array items => (itemNodes? items).map .array
  | .inline entries => (entryNodes? entries []).map (.inline .explicit)

/-- The values of the items of an array. -/
def itemNodes? : List Value → Option (List Node)
  | [] => some []
  | item :: items =>
      match Value.toNode? item, itemNodes? items with
      | some node, some nodes => some (node :: nodes)
      | _, _ => none

/-- The table that entries in braces make on top of others. -/
def entryNodes? : List (Path × Value) → Members → Option Members
  | [], members => some members
  | (path, value) :: entries, members =>
      match Value.toNode? value with
      | none => none
      | some node =>
          match members.insertInline? node path.last path.parents with
          | none => none
          | some members => entryNodes? entries members

end

/-- The table that entries are of. -/
inductive Target where
  | root
  | table (path : Path)
  | item (path : Path)

/-- A document that has been read up to some line. -/
structure Draft where
  /-- The tables that are complete. -/
  root : Members
  target : Target
  /-- The entries of the table that is open. -/
  current : Members

namespace Draft

def empty : Draft :=
  ⟨[], .root, []⟩

/-- The whole document once the open table is put in its place. -/
def close? (d : Draft) : Option Members :=
  match d.target with
  | .root => some d.current
  | .table path =>
      (d.root.alterAt? (fun members =>
        (members.insert? path.last (.table .explicit d.current)).map ((), ·)) path.parents).map
        Prod.snd
  | .item path =>
      (d.root.alterAt? (fun members =>
        match members.get? path.last with
        | none => some ((), members ++ [(path.last, .tables [d.current])])
        | some (.tables items) =>
            some ((), members.set path.last (.tables (items ++ [d.current])))
        | some _ => none) path.parents).map Prod.snd

/-- Open a table. One that a header passed through keeps what it holds. -/
def openTable? (root : Members) (path : Path) : Option Draft :=
  (root.alterAt? (fun members =>
    match members.get? path.last with
    | none => some (([] : Members), members)
    | some (.table .implied inner) => some (inner, members.filter (·.1 != path.last))
    | some _ => none) path.parents).map fun (current, root) => ⟨root, .table path, current⟩

/-- Open a new table at the end of an array. -/
def openItem? (root : Members) (path : Path) : Option Draft :=
  (root.alterAt? (fun members =>
    match members.get? path.last with
    | none => some ((), members)
    | some (.tables _) => some ((), members)
    | some _ => none) path.parents).map fun ((), root) => ⟨root, .item path, []⟩

/-- What a document comes to with one more statement. -/
def add? (d : Draft) : Statement → Option Draft
  | .table path => d.close?.bind (openTable? · path)
  | .tableItem path => d.close?.bind (openItem? · path)
  | .entry path value =>
      value.toNode?.bind fun node =>
        (d.current.insertDotted? node path.last path.parents).map fun current =>
          { d with current := current }

/-- What a document comes to with more statements. -/
def addAll? (d : Draft) : List Statement → Option Draft
  | [] => some d
  | s :: rest => (d.add? s).bind fun d => addAll? d rest

end Draft

def readChars (cs : List Char) : Option Members :=
  (readStatements cs).bind fun statements =>
    (Draft.empty.addAll? statements).bind Draft.close?

def read (text : String) : Option Members :=
  readChars text.toList

end PageRefresh.Toml
