/-! Blank characters and trimming. Trimming takes away every character with the Unicode property
White_Space; the end of a keyword is marked by one of five ASCII blanks only. -/
namespace SqlCompose.Text

def inRanges (ranges : List (Nat × Nat)) (char : Char) : Bool :=
  ranges.any fun range => decide (range.1 ≤ char.toNat) && decide (char.toNat ≤ range.2)

/-- The code points with the property White_Space, as closed ranges. -/
def blankRanges : List (Nat × Nat) :=
  [(0x9, 0xd), (0x20, 0x20), (0x85, 0x85), (0xa0, 0xa0), (0x1680, 0x1680), (0x2000, 0x200a),
   (0x2028, 0x2029), (0x202f, 0x202f), (0x205f, 0x205f), (0x3000, 0x3000)]

def isBlank (char : Char) : Bool := inRanges blankRanges char

/-- Space, tab, line feed, form feed and carriage return. The vertical tab is not among them. -/
def isAsciiBlank (char : Char) : Bool :=
  char = ' ' || char = '\t' || char = '\n' || char = '\x0c' || char = '\r'

def trimStart (text : List Char) : List Char := text.dropWhile isBlank

def trimEnd (text : List Char) : List Char := (text.reverse.dropWhile isBlank).reverse

def trim (text : List Char) : List Char := trimEnd (trimStart text)

def trimmed (text : String) : String := String.ofList (trim text.toList)

theorem trimStart_cons (first : Char) (rest : List Char) (filled : isBlank first = false) :
    trimStart (first :: rest) = first :: rest := by
  rw [trimStart, List.dropWhile_cons_of_neg (by simp [filled])]

theorem exists_trimEnd (text : List Char) :
    ∃ back, text = trimEnd text ++ back ∧ ∀ char ∈ back, isBlank char = true := by
  refine ⟨(text.reverse.takeWhile isBlank).reverse, ?_, fun char member => ?_⟩
  · rw [trimEnd, ← List.reverse_append, List.takeWhile_append_dropWhile, List.reverse_reverse]
  · exact List.all_eq_true.mp List.all_takeWhile char (List.mem_reverse.mp member)

/-- Trimming takes nothing but blanks from both ends of a text. -/
theorem exists_trim (text : List Char) :
    ∃ front back, text = front ++ (trim text ++ back) ∧ (∀ char ∈ front, isBlank char = true) ∧
      ∀ char ∈ back, isBlank char = true := by
  obtain ⟨back, split, trailing⟩ := exists_trimEnd (trimStart text)
  refine ⟨text.takeWhile isBlank, back, ?_, List.all_eq_true.mp List.all_takeWhile, trailing⟩
  rw [trim, ← split, trimStart, List.takeWhile_append_dropWhile]

theorem blank_of_trim (text : List Char) (empty : trim text = []) :
    ∀ char ∈ text, isBlank char = true := by
  obtain ⟨front, back, split, leading, trailing⟩ := exists_trim text
  rw [empty, List.nil_append] at split
  intro char member
  rw [split] at member
  rcases List.mem_append.mp member with before | behind
  · exact leading char before
  · exact trailing char behind

/-- Trimming leaves no blank at either end. -/
theorem trim_edges (text : List Char) :
    (∀ char ∈ (trim text).head?, isBlank char = false) ∧
      ∀ char ∈ (trim text).getLast?, isBlank char = false := by
  refine ⟨fun char member => ?_, fun char member => ?_⟩
  · obtain ⟨back, split, _⟩ := exists_trimEnd (trimStart text)
    have head : (trimStart text).head? = some char := by
      rw [split, List.head?_append, show (trimEnd (trimStart text)).head? = some char from member]
      rfl
    have kept := List.head?_dropWhile_not isBlank text
    rw [trimStart] at head
    rw [head] at kept
    exact kept
  · have kept := List.head?_dropWhile_not isBlank (trimStart text).reverse
    rw [trim, trimEnd, List.getLast?_reverse] at member
    rw [Option.mem_def.mp member] at kept
    exact kept

def filled (text : List Char) : List Char := text.filter fun char => !isBlank char

theorem filled_append (front back : List Char) :
    filled (front ++ back) = filled front ++ filled back :=
  List.filter_append front back

theorem filled_of_blank (text : List Char) (blank : ∀ char ∈ text, isBlank char = true) :
    filled text = [] := by
  apply List.filter_eq_nil_iff.mpr
  intro char member
  simp [blank char member]

theorem filled_trim (text : List Char) : filled (trim text) = filled text := by
  obtain ⟨front, back, split, leading, trailing⟩ := exists_trim text
  have whole := congrArg filled split
  rw [filled_append, filled_append, filled_of_blank front leading, filled_of_blank back trailing,
    List.nil_append, List.append_nil] at whole
  exact whole.symm

theorem eq_of_isAsciiBlank (char : Char) (blank : isAsciiBlank char = true) :
    char = ' ' ∨ char = '\t' ∨ char = '\n' ∨ char = '\x0c' ∨ char = '\r' := by
  simpa [isAsciiBlank, or_assoc] using blank

theorem isBlank_of_isAsciiBlank (char : Char) (blank : isAsciiBlank char = true) :
    isBlank char = true := by
  rcases eq_of_isAsciiBlank char blank with rfl | rfl | rfl | rfl | rfl <;> decide

end SqlCompose.Text
