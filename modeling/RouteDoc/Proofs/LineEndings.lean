import RouteDoc.Proofs.Collection

/-! Line endings. A carriage return before a line feed belongs to the end of the line, so a text in
which one stands before each line feed has the lines of the text without them. Sources are read by
their lines, and so `generate_withReturns` says that a document does not show how they end. -/

namespace RouteDoc

namespace Text

/-- What stands for a character where a carriage return stands before each line feed. -/
def addReturn (c : Char) : List Char := if c = '\n' then ['\r', '\n'] else [c]

/-- The text with a carriage return before each line feed. -/
def withReturns (text : String) : String := String.ofList (text.toList.flatMap addReturn)

/-- Returns before the line feeds of a text do not show in its lines. The induction is on the text to
come, and `line` is what the line at hand has so far. -/
theorem linesOfPieces_flatMap_addReturn {line text : List Char} (hfeed : '\n' ∉ line)
    (hline : '\r' ∉ line) (htext : '\r' ∉ text) :
    linesOfPieces ((line ++ text.flatMap addReturn).splitOn '\n') =
      linesOfPieces ((line ++ text).splitOn '\n') := by
  induction text generalizing line with
  | nil => simp
  | cons c text ih =>
    simp only [List.mem_cons, not_or] at htext
    by_cases hc : c = '\n'
    · subst hc
      have hreturned : '\n' ∉ line ++ ['\r'] := by simp [hfeed]
      have hrest := @ih [] (by simp) (by simp) htext.2
      calc linesOfPieces ((line ++ ('\n' :: text).flatMap addReturn).splitOn '\n')
          = linesOfPieces ((line ++ ['\r'] ++ '\n' :: text.flatMap addReturn).splitOn '\n') := by
            simp [addReturn]
        _ = line :: linesOfPieces ((text.flatMap addReturn).splitOn '\n') := by
            rw [linesOfPieces_append_feed hreturned, dropReturn_append_return]
        _ = line :: linesOfPieces (text.splitOn '\n') := congrArg _ hrest
        _ = linesOfPieces ((line ++ '\n' :: text).splitOn '\n') := by
            rw [linesOfPieces_append_feed hfeed, dropReturn_of_not_mem hline]
    · have hnext := @ih (line ++ [c]) (by simp [hfeed, Ne.symm hc]) (by simp [hline, htext.1]) htext.2
      simpa [addReturn, hc] using hnext

theorem lines_withReturns {text : String} (h : '\r' ∉ text.toList) :
    lines (withReturns text) = lines text := by
  rw [lines, withReturns, String.toList_ofList]
  exact congrArg (List.map String.ofList)
    (linesOfPieces_flatMap_addReturn List.not_mem_nil List.not_mem_nil h)

-- Of two returns before a line feed only the last belongs to the end of the line.
example : lines (withReturns "a\r\n") = ["a\r"] := by decide

end Text

open Text

/-- The source with a carriage return before each line feed. -/
def Source.withReturns (s : Source) : Source := { s with content := Text.withReturns s.content }

theorem Source.blocks_withReturns {s : Source} (h : '\r' ∉ s.content.toList) :
    s.withReturns.blocks = s.blocks :=
  congrArg (Block.scan s.identifier none) (lines_withReturns h)

theorem allBlocks_withReturns {sources : List Source}
    (h : ∀ s ∈ sources, '\r' ∉ s.content.toList) :
    allBlocks (sources.map Source.withReturns) = allBlocks sources := by
  induction sources with
  | nil => rfl
  | cons s sources ih =>
    have hrest := ih fun t ht => h t (List.mem_cons_of_mem _ ht)
    rw [List.map_cons, allBlocks, List.flatMap_cons, Source.blocks_withReturns (h s (by simp))]
    exact congrArg (s.blocks ++ ·) hrest

/-- A document is generated from the blocks of its sources and their number. -/
theorem generate_congr_allBlocks (settings : Settings) {s t : List Source}
    (hlength : s.length = t.length) (hblocks : allBlocks s = allBlocks t) :
    generate settings s = generate settings t := by
  simp only [generate_eq, blocksOf, hlength, hblocks]

/-- Line endings do not matter. Sources without carriage returns give the same document and the same
counts, or the same fault, when one is put before each line feed, and the same warnings. -/
theorem generate_withReturns (settings : Settings) {sources : List Source}
    (h : ∀ s ∈ sources, '\r' ∉ s.content.toList) :
    generate settings (sources.map Source.withReturns) = generate settings sources :=
  generate_congr_allBlocks settings (by simp) (allBlocks_withReturns h)

/-- A description, whose lines are copied as they are, a route with a parameter, and a last line that
no line feed ends. -/
theorem generate_withReturns_description :
    let settings : Settings := { title := "T", host := "h" }
    let sources : List Source := [⟨"a", "/**\n@apiDescribe D\n\n  x\n*/\n"⟩,
      ⟨"b", "/**\n@api {get} /:i It\n@apiDescription #D\n@apiParam {String} i An id\n*/"⟩]
    (∀ s ∈ sources, '\r' ∉ s.content.toList) ∧
    (∀ s ∈ sources.map Source.withReturns, '\r' ∈ s.content.toList) ∧
    (generate settings sources).result.toOption.map (·.counts.routes) = some 1 ∧
    generate settings (sources.map Source.withReturns) = generate settings sources := by
  intro settings sources
  have hsources : ∀ s ∈ sources, '\r' ∉ s.content.toList := by decide
  exact ⟨hsources, by decide, by decide +kernel, generate_withReturns settings hsources⟩

end RouteDoc
