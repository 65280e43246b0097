/-!
Lines of text. Only a line feed ends one.
-/

namespace PageRefresh.Text

/-- The lines of a text that ends in a line feed, given without that line feed. -/
def splitLines : List Char → List (List Char)
  | [] => [[]]
  | c :: cs =>
      if c = '\n' then [] :: splitLines cs
      else
        match splitLines cs with
        | [] => [[c]]
        | line :: rest => (c :: line) :: rest

/-- The lines that are seen when texts are printed, each with a line feed after it. -/
def printedLines (texts : List String) : List String :=
  texts.flatMap fun text => (splitLines text.toList).map String.ofList

end PageRefresh.Text
