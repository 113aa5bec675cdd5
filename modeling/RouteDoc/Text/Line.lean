/-! The lines of a text, and texts made of lines. A line ends at a line feed, and a carriage return
directly before the line feed belongs to the end. -/

namespace RouteDoc.Text

/-- The line without one carriage return at its end. -/
def dropReturn (line : List Char) : List Char :=
  if line.getLast? = some '\r' then line.dropLast else line

/-- The lines among the pieces between line feeds: each piece but the last ends a line, and the
last is a line only if it holds something. -/
def linesOfPieces : List (List Char) → List (List Char)
  | [] => []
  | [last] => if last.isEmpty then [] else [last]
  | piece :: pieces => dropReturn piece :: linesOfPieces pieces

/-- The lines of a text, without their ends. -/
def lines (text : String) : List String :=
  (linesOfPieces (text.toList.splitOn '\n')).map String.ofList

/-- The text in which each line is followed by a line feed. -/
def unlines (lines : List String) : String :=
  "\n".intercalate lines ++ "\n"

theorem dropReturn_append_return (line : List Char) : dropReturn (line ++ ['\r']) = line := by
  simp [dropReturn]

theorem dropReturn_of_not_mem {line : List Char} (h : '\r' ∉ line) : dropReturn line = line := by
  rw [dropReturn, if_neg]
  exact fun hlast => h (List.mem_of_getLast? hlast)

theorem linesOfPieces_cons (piece : List Char) {pieces : List (List Char)} (hne : pieces ≠ []) :
    linesOfPieces (piece :: pieces) = dropReturn piece :: linesOfPieces pieces := by
  cases pieces with
  | nil => exact absurd rfl hne
  | cons next pieces => rfl

/-- A line goes up to the next line feed. -/
theorem linesOfPieces_append_feed {line : List Char} (h : '\n' ∉ line) (rest : List Char) :
    linesOfPieces ((line ++ '\n' :: rest).splitOn '\n') =
      dropReturn line :: linesOfPieces (rest.splitOn '\n') := by
  rw [List.splitOn_append_cons_self, List.splitOn_eq_singleton h, List.singleton_append,
    linesOfPieces_cons line (List.splitOn_ne_nil _ _)]

end RouteDoc.Text
