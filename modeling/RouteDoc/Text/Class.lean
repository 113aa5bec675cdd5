/-! Classes of characters: the white space at the ends of a text, the ASCII letters, digits and
underscores of words, and the runs of code points in which the tables of Unicode properties are
written. -/

namespace RouteDoc.Text

/-! ### White space -/

/-- The characters with the Unicode property White_Space. -/
def isBlank (c : Char) : Bool :=
  let n := c.toNat
  (0x09 ≤ n && n ≤ 0x0D) || n == 0x20 || n == 0x85 || n == 0xA0 || n == 0x1680 ||
    (0x2000 ≤ n && n ≤ 0x200A) || n == 0x2028 || n == 0x2029 || n == 0x202F || n == 0x205F ||
    n == 0x3000

/-- The text without the longest run of characters in `p` at its end. -/
def dropEndWhile (p : Char → Bool) (cs : List Char) : List Char :=
  (cs.reverse.dropWhile p).reverse

def trimStart (cs : List Char) : List Char :=
  cs.dropWhile isBlank

def trimEnd (cs : List Char) : List Char :=
  dropEndWhile isBlank cs

def trim (cs : List Char) : List Char :=
  trimEnd (trimStart cs)

/-- Whether the text has no character but white space. -/
def isBlankText (cs : List Char) : Bool :=
  cs.all isBlank

@[simp] theorem trimEnd_nil : trimEnd [] = [] := rfl

@[simp] theorem trimStart_nil : trimStart [] = [] := rfl

/-- A text that ends with a character outside the class keeps its end. -/
theorem dropEndWhile_append_singleton {p : Char → Bool} {c : Char} (h : p c = false)
    (cs : List Char) : dropEndWhile p (cs ++ [c]) = cs ++ [c] := by
  simp [dropEndWhile, h]

theorem dropEndWhile_append_of_all {p : Char → Bool} {tail : List Char}
    (h : ∀ c ∈ tail, p c = true) (cs : List Char) :
    dropEndWhile p (cs ++ tail) = dropEndWhile p cs := by
  have h' : ∀ c ∈ tail.reverse, p c = true := by simpa using h
  simp [dropEndWhile, List.dropWhile_append_of_pos h']

/-- Only the end is lost. -/
theorem dropEndWhile_isPrefix (p : Char → Bool) (cs : List Char) : dropEndWhile p cs <+: cs := by
  have hsuffix := List.dropWhile_suffix (l := cs.reverse) p
  rw [dropEndWhile, ← List.reverse_suffix, List.reverse_reverse]
  exact hsuffix

/-- What is left does not end with a character of the class. -/
theorem getLast?_dropEndWhile {p : Char → Bool} {cs : List Char} {c : Char}
    (h : (dropEndWhile p cs).getLast? = some c) : p c = false := by
  rw [dropEndWhile, List.getLast?_reverse] at h
  have hhead := List.head?_dropWhile_not p cs.reverse
  rw [h] at hhead
  exact hhead

/-! ### Words -/

/-- ASCII letters, digits and the underscore. -/
def isWord (c : Char) : Bool :=
  c.isAlphanum || c == '_'

/-- The longest run of word characters at the start of a text. -/
def word (cs : List Char) : List Char :=
  cs.takeWhile isWord

/-- What follows the word at the start of a text. -/
def afterWord (cs : List Char) : List Char :=
  cs.dropWhile isWord

/-- The word at the start of a text with what follows it, if there is one. -/
def word? (cs : List Char) : Option (List Char × List Char) :=
  if (word cs).isEmpty then none else some (word cs, afterWord cs)

theorem word_append_afterWord (cs : List Char) : word cs ++ afterWord cs = cs :=
  List.takeWhile_append_dropWhile

theorem isWord_of_mem_word {c : Char} {cs : List Char} (h : c ∈ word cs) : isWord c = true :=
  List.all_eq_true.mp List.all_takeWhile c h

/-- Two texts are equal when the case of ASCII letters is ignored. -/
def equalIgnoringCase (s t : List Char) : Bool :=
  s.map Char.toLower == t.map Char.toLower

/-! ### Runs of code points -/

/-- Whether the code point `n` is in the run `(first, last, step)`, which holds `first`,
`first + step`, … up to `last`. -/
def inRun (n : Nat) : Nat × Nat × Nat → Bool
  | (first, last, step) => first ≤ n && n ≤ last && (n - first) % step == 0

end RouteDoc.Text
