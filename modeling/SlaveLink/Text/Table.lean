/-! # Tables
Rows of texts in a frame of box-drawing characters. Each column is as wide as its widest text, with
a blank on either side. -/

namespace SlaveLink.Text

/-- The characters of one ruled line: its ends, the line itself, and where it meets a column. -/
structure Rule where
  left : String
  line : Char
  cross : String
  right : String

namespace Rule

def top : Rule := ⟨"┌", '─', "┬", "┐"⟩
def belowHeader : Rule := ⟨"╞", '═', "╪", "╡"⟩
def betweenRows : Rule := ⟨"├", '╌', "┼", "┤"⟩
def bottom : Rule := ⟨"└", '─', "┴", "┘"⟩

/-- The ruled line over columns of these widths. -/
def draw (r : Rule) (widths : List Nat) : String :=
  r.left ++ r.cross.intercalate (widths.map fun w => String.ofList (List.replicate (w + 2) r.line))
    ++ r.right

end Rule

/-- A text in a column, blanks around it. -/
def cell (width : Nat) (s : String) : String :=
  " " ++ s ++ String.ofList (List.replicate (width - s.length) ' ') ++ " "

def tableRow (widths : List Nat) (row : List String) : String :=
  "│" ++ "┆".intercalate (List.zipWith cell widths row) ++ "│"

def columnWidths (header : List String) (rows : List (List String)) : List Nat :=
  rows.foldl (fun ws row => List.zipWith (fun w s => max w s.length) ws row)
    (header.map String.length)

def tableLines (header : List String) (rows : List (List String)) : List String :=
  let widths := columnWidths header rows
  let body := (rows.map (tableRow widths)).intersperse (Rule.betweenRows.draw widths)
  [Rule.top.draw widths, tableRow widths header, Rule.belowHeader.draw widths] ++ body ++
    [Rule.bottom.draw widths]

end SlaveLink.Text
