import Mathlib.Data.List.DropRight
import SqlCompose.Proofs.Lexing

/-! Keywords with their bodies, put together with single spaces, are read back as they are. -/
namespace SqlCompose

namespace Text

theorem trimEnd_eq (text : List Char) : trimEnd text = text.rdropWhile isBlank := rfl

theorem trim_ne_nil (text : List Char) (char : Char) (member : char ∈ text)
    (filled : isBlank char = false) : trim text ≠ [] := by
  intro empty
  rw [blank_of_trim text empty char member] at filled
  cases filled

/-- A text with such edges stays when it is trimmed, with or without a blank behind it. -/
theorem trim_of_edges (text blanks : List Char)
    (first : ∀ char ∈ text.head?, isBlank char = false)
    (last : ∀ char ∈ text.getLast?, isBlank char = false)
    (blank : ∀ char ∈ blanks, isBlank char = true) : trim (text ++ blanks) = text := by
  have ended : trimEnd text = text := by
    rw [trimEnd_eq, List.rdropWhile_eq_self_iff]
    intro nonempty
    rw [last _ (List.getLast?_eq_some_getLast nonempty)]
    simp
  have extended : trimEnd (text ++ blanks) = text := by
    induction blanks using List.reverseRecOn with
    | nil => rw [List.append_nil, ended]
    | append_singleton front char ih =>
      rw [trimEnd_eq, ← List.append_assoc, List.rdropWhile_concat_pos _ _ _ (blank char (by simp))]
      exact ih fun other member => blank other (List.mem_append_left _ member)
  cases text with
  | nil =>
    have none : trimStart ([] ++ blanks) = [] := List.dropWhile_eq_nil_iff.mpr blank
    rw [trim, none]
    rfl
  | cons char rest =>
    have opening := first char rfl
    have started : trimStart (char :: rest ++ blanks) = char :: rest ++ blanks := by
      rw [trimStart, List.cons_append, List.dropWhile_cons_of_neg (by simp [opening])]
    rw [trim, started]
    exact extended

end Text

namespace Lexed

open Text

theorem Bare.of_blank_cons (char : Char) (rest : List Char) (blank : isAsciiBlank char = true)
    (bare : Bare true (char :: rest)) : Bare true rest := by
  obtain ⟨unquoted, ungrouped⟩ := plain_of_isAsciiBlank char blank
  apply bare_of_parts true rest (bare.whole.of_cons char rest unquoted ungrouped)
  have parts : (ofText true (char :: rest)).parts = [] := by rw [bare]
  rw [ofText_gap true char rest blank] at parts
  exact parts

theorem Bare.before_blank (front rest : List Char) (blank : Char) (boundary : Bool)
    (isBlank : isAsciiBlank blank = true) (apart : ∀ char ∈ rest.head?, char.toUpper ≠ 'B')
    (whole : Whole front) (bare : Bare boundary (front ++ blank :: rest)) :
    Bare boundary front := by
  have parts : (ofText boundary (front ++ blank :: rest)).parts = [] := by rw [bare]
  clear bare
  apply bare_of_parts boundary front whole
  induction whole generalizing boundary with
  | nil => rw [ofText, finished]
  | set text more closed _ ih =>
    rw [List.append_assoc, ofText_set boundary text _ closed] at parts
    rw [ofText_set boundary text more closed]
    exact ih false parts
  | plain first more unquoted ungrouped _ ih =>
    have told := Clause.at?_blank (first :: more) rest blank isBlank apart
    rw [List.cons_append] at parts told
    rw [ofText_plain boundary first _ unquoted ungrouped, told] at parts
    rw [ofText_plain boundary first more unquoted ungrouped]
    split at parts
    · cases parts
    · exact ih _ parts

theorem Bare.of_snoc_blank (front : List Char) (char : Char) (boundary : Bool)
    (blank : isAsciiBlank char = true) (bare : Bare boundary (front ++ [char])) :
    Bare boundary front := by
  obtain ⟨unquoted, _, ungrouped⟩ := plain_of_isBlank char (isBlank_of_isAsciiBlank char blank)
  have whole := bare.whole.of_snoc front char unquoted ungrouped
  exact bare.before_blank front [] char boundary blank (by simp) whole

/-- Trimming takes only blanks away, so it leaves no keyword behind that was none. -/
theorem Bare.trim (text : List Char) (blank : ∀ char ∈ text, isBlank char → isAsciiBlank char)
    (bare : Bare true text) : Bare true (trim text) := by
  have started : ∀ rest : List Char, (∀ char ∈ rest, isBlank char → isAsciiBlank char) →
      Bare true rest → Bare true (trimStart rest) := by
    intro rest each
    induction rest with
    | nil => exact id
    | cons char rest ih =>
      intro whole
      cases dropped : isBlank char with
      | false =>
        rw [trimStart, List.dropWhile_cons_of_neg (by simp [dropped])]
        exact whole
      | true =>
        rw [trimStart, List.dropWhile_cons_of_pos (by simp [dropped])]
        have tail := whole.of_blank_cons char rest (each char List.mem_cons_self dropped)
        exact ih (fun other member => each other (List.mem_cons_of_mem _ member)) tail
  have ended : ∀ rest : List Char, (∀ char ∈ rest, isBlank char → isAsciiBlank char) →
      Bare true rest → Bare true (trimEnd rest) := by
    intro rest each
    induction rest using List.reverseRecOn with
    | nil => exact id
    | append_singleton front char ih =>
      intro whole
      cases dropped : isBlank char with
      | false =>
        rw [trimEnd_eq, List.rdropWhile_concat_neg _ _ _ (by simp [dropped])]
        exact whole
      | true =>
        rw [trimEnd_eq, List.rdropWhile_concat_pos _ _ _ dropped]
        have init := Bare.of_snoc_blank front char true (each char (by simp) dropped) whole
        exact ih (fun other member => each other (List.mem_append_left _ member)) init
  refine ended _ (fun char member => blank char ?_) (started text blank bare)
  exact (List.dropWhile_suffix isBlank).mem member

theorem spelled_cases (clause : Clause) (spelled : List Char)
    (upper : spelled.map Char.toUpper = clause.keyword.toList) :
    (∀ char ∈ spelled, char.isAlpha = true) ∨
    ∃ letters second last, spelled = letters ++ [' ', second, last] ∧
      (∀ char ∈ letters, char.isAlpha = true) ∧ second.toUpper = 'B' ∧ last.toUpper = 'Y' := by
  have lettered (letters : List Char) (word : List Char) (same : letters.map Char.toUpper = word)
      (alphabetic : word.all Char.isAlpha = true) :
      ∀ char ∈ letters, char.isAlpha = true := by
    intro char member
    have capital : char.toUpper ∈ word := by
      rw [← same]
      exact List.mem_map.mpr ⟨char, member, rfl⟩
    exact Clause.isAlpha_of_toUpper char _ rfl (List.all_eq_true.mp alphabetic _ capital)
  have two (word : List Char) (alphabetic : word.all Char.isAlpha = true)
      (same : spelled.map Char.toUpper = word ++ [' ', 'B', 'Y']) :
      ∃ letters second last, spelled = letters ++ [' ', second, last] ∧
        (∀ char ∈ letters, char.isAlpha = true) ∧ second.toUpper = 'B' ∧ last.toUpper = 'Y' := by
    obtain ⟨letters, rest, rfl, front, back⟩ := List.map_eq_append_iff.mp same
    obtain ⟨space, tail, rfl, gap, behind⟩ := List.map_eq_cons_iff.mp back
    obtain ⟨second, more, rfl, initial, final⟩ := List.map_eq_cons_iff.mp behind
    obtain ⟨last, none, rfl, closing, ended⟩ := List.map_eq_cons_iff.mp final
    rw [List.map_eq_nil_iff] at ended
    have unlettered : space.isAlpha = false := by
      by_contra letter
      rw [Bool.not_eq_false] at letter
      exact Clause.toUpper_ne_space space letter gap
    rw [Clause.toUpper_of_not_isAlpha space unlettered] at gap
    exact ⟨letters, second, last, by rw [gap, ended], lettered letters word front alphabetic,
      initial, closing⟩
  cases clause with
  | groupBy => exact .inr (two ['G', 'R', 'O', 'U', 'P'] (by decide) upper)
  | orderBy => exact .inr (two ['O', 'R', 'D', 'E', 'R'] (by decide) upper)
  | _ => exact .inl (lettered spelled _ upper (by decide))

theorem at?_of_toUpper (char : Char) (rest : List Char) (capital : char.toUpper = 'B') :
    Clause.at? (char :: rest) = none := by
  cases found : Clause.at? (char :: rest) with
  | none => rfl
  | some clause =>
    obtain ⟨first, tail, same, other, _⟩ := Clause.at?_head _ clause found
    cases same
    exact absurd capital other

theorem ofText_opening (clause : Clause) (spelled rest : List Char)
    (upper : spelled.map Char.toUpper = clause.keyword.toList)
    (bounded : ∀ char ∈ rest.head?, isAsciiBlank char = true) :
    ofText true (spelled ++ rest) = ((ofText false rest).behind spelled).startingWith clause := by
  have found : Clause.at? (spelled ++ rest) = some clause := by
    rw [Clause.at?_eq_some_iff, Clause.begins_iff]
    exact ⟨spelled, rest, rfl, upper, bounded⟩
  obtain ⟨first, tail, begins, _, alphabetic⟩ := Clause.at?_head _ clause found
  obtain ⟨_, _, capital, _⟩ := clause.keyword_first_letter
  have filled : spelled ≠ [] := by
    rintro rfl
    rw [capital] at upper
    cases upper
  rcases spelled_cases clause spelled upper with letters | words
  · cases spelled with
    | nil => exact absurd rfl filled
    | cons char spelled =>
      have others : ∀ other ∈ spelled, other.isAlpha = true := fun other member =>
        letters other (List.mem_cons_of_mem _ member)
      rw [List.cons_append] at found ⊢
      rw [ofText_keyword char _ clause found, ofText_letters spelled _ others]
      rfl
  · obtain ⟨letters, second, last, rfl, lettered, initial, final⟩ := words
    cases letters with
    | nil =>
      cases begins
      exact absurd alphabetic (by decide)
    | cons char letters =>
      have others : ∀ other ∈ letters, other.isAlpha = true := fun other member =>
        lettered other (List.mem_cons_of_mem _ member)
      have secondLetter := Clause.isAlpha_of_toUpper second 'B' initial (by decide)
      have lastLetter := Clause.isAlpha_of_toUpper last 'Y' final (by decide)
      obtain ⟨unquoted, ungrouped, unblank⟩ := Clause.plain_of_isAlpha second secondLetter
      -- The space within the keyword is a boundary, but no keyword begins behind it.
      have word : ofText true (second :: last :: rest) =
          (ofText false rest).behind [second, last] := by
        have lastRead := ofText_letters [last] rest (by simp [lastLetter])
        rw [List.singleton_append] at lastRead
        rw [ofText_step true second _ unquoted ungrouped
          (fun _ => at?_of_toUpper second _ initial), unblank, lastRead]
        rfl
      simp only [List.cons_append, List.append_assoc, List.nil_append] at found ⊢
      rw [ofText_keyword char _ clause found, ofText_letters letters _ others,
        ofText_step false ' ' _ (by decide) (by decide) (by simp)]
      have space : isAsciiBlank ' ' = true := by decide
      rw [space, word]
      simp [behind]

theorem ofText_spelled (clause : Clause) (spelled : List Char) (blank : Char) (rest : List Char)
    (upper : spelled.map Char.toUpper = clause.keyword.toList)
    (isBlank : isAsciiBlank blank = true) :
    ofText true (spelled ++ blank :: rest) =
      ((ofText true rest).behind (spelled ++ [blank])).startingWith clause := by
  rw [ofText_opening clause spelled (blank :: rest) upper (by simpa using isBlank),
    ofText_gap false blank rest isBlank]
  simp [behind]

structure Written where
  clause : Clause
  keyword : List Char
  body : List Char

namespace Written

def ofPart (part : Clause × List Char) : Written where
  clause := part.1
  keyword := part.2.take part.1.keyword.length
  body := trim (part.2.drop (part.1.keyword.length + 1))

def text (written : Written) : List Char := written.keyword ++ ' ' :: written.body

def joined : List Written → List Char
  | [] => []
  | [written] => written.text
  | written :: next :: rest => written.text ++ ' ' :: joined (next :: rest)

/-- A clause that can be read: its keyword is spelled right, and its body is trimmed, closed and
without a keyword. -/
structure Sound (written : Written) : Prop where
  spelled : written.keyword.map Char.toUpper = written.clause.keyword.toList
  bare : Bare true written.body
  first : ∀ char ∈ written.body.head?, isBlank char = false
  last : ∀ char ∈ written.body.getLast?, isBlank char = false

theorem Sound.length (written : Written) (sound : written.Sound) :
    written.clause.keyword.length = written.keyword.length :=
  written.clause.length_spelled written.keyword sound.spelled

theorem ofPart_text (written : Written) (sound : written.Sound) (blanks : List Char)
    (blank : ∀ char ∈ blanks, isBlank char = true) :
    ofPart (written.clause, written.text ++ blanks) = written := by
  have kept := trim_of_edges written.body blanks sound.first sound.last blank
  have behind : (written.keyword ++ ' ' :: (written.body ++ blanks)).drop
      (written.keyword.length + 1) = written.body ++ blanks := by
    rw [List.drop_length_add_append, List.drop_one, List.tail_cons]
  simp only [ofPart, text, sound.length, List.append_assoc, List.cons_append, List.take_left,
    behind, kept]

theorem ofPart_opens (part : Clause × List Char) (found : Clause.at? part.2 = some part.1)
    (alone : ofText true part.2 = ⟨[], [part], none⟩) :
    ∃ rest, part.2 = (ofPart part).keyword ++ rest ∧
      (ofPart part).keyword.map Char.toUpper = part.1.keyword.toList ∧
      (ofPart part).body = trim rest.tail ∧ Bare true rest.tail := by
  obtain ⟨clause, text⟩ := part
  rw [Clause.at?_eq_some_iff, Clause.begins_iff] at found
  obtain ⟨spelled, rest, split, upper, bounded⟩ := found
  have length := clause.length_spelled spelled upper
  change text = spelled ++ rest at split
  subst split
  have keyword : (ofPart (clause, spelled ++ rest)).keyword = spelled := by
    simp only [ofPart, length, List.take_left]
  have body : (ofPart (clause, spelled ++ rest)).body = trim rest.tail := by
    simp only [ofPart, length, List.drop_length_add_append, List.drop_one]
  refine ⟨rest, by rw [keyword], by rw [keyword]; exact upper, body, ?_⟩
  cases rest with
  | nil => exact bare_of_parts true [] .nil (by rw [ofText, finished])
  | cons gap rest =>
    have isGap : isAsciiBlank gap = true := bounded gap rfl
    have read := ofText_spelled clause spelled gap rest upper isGap
    have same := read.symm.trans alone
    have closed : (ofText true rest).unclosed = none := congrArg Lexed.unclosed same
    have parts : (ofText true rest).parts = [] := (List.cons.inj (congrArg Lexed.parts same)).2
    exact bare_of_parts true rest (whole_of_unclosed true rest closed) parts

theorem sound_ofPart (part : Clause × List Char)
    (blank : ∀ char ∈ part.2, isBlank char → isAsciiBlank char)
    (found : Clause.at? part.2 = some part.1)
    (alone : ofText true part.2 = ⟨[], [part], none⟩) : (ofPart part).Sound := by
  obtain ⟨rest, split, spelled, body, bare⟩ := ofPart_opens part found alone
  have edges := trim_edges rest.tail
  rw [← body] at edges
  refine ⟨spelled, ?_, edges.1, edges.2⟩
  rw [body]
  refine bare.trim rest.tail fun char member => blank char ?_
  rw [split]
  exact List.mem_append_right _ (List.mem_of_mem_tail member)

theorem joined_head (list : List Written) (sound : ∀ written ∈ list, written.Sound) :
    ∀ char ∈ (joined list).head?, char.toUpper ≠ 'B' := by
  intro char member
  cases list with
  | nil => cases member
  | cons written rest =>
    obtain ⟨first, tail, spelled, other, _⟩ := Clause.keyword_first_letter written.clause
    have upper := (sound written List.mem_cons_self).spelled
    rw [spelled] at upper
    obtain ⟨letter, letters, keyword, capital, _⟩ := List.map_eq_cons_iff.mp upper
    have head : (joined (written :: rest)).head? = some letter := by
      cases rest <;> simp [joined, text, keyword]
    rw [head] at member
    cases member
    rw [capital]
    exact other

/-- Clauses put together are read back one by one, as they were. -/
theorem ofText_joined (list : List Written) (sound : ∀ written ∈ list, written.Sound) :
    (ofText true (joined list)).lead = [] ∧ (ofText true (joined list)).unclosed = none ∧
      (ofText true (joined list)).parts.map ofPart = list := by
  induction list with
  | nil => simp [joined, ofText, finished]
  | cons written rest ih =>
    have own := sound written List.mem_cons_self
    have others : ∀ other ∈ rest, other.Sound := fun other member =>
      sound other (List.mem_cons_of_mem _ member)
    cases rest with
    | nil =>
      have again := ofPart_text written own [] (by simp)
      rw [List.append_nil] at again
      rw [joined, text, ofText_spelled written.clause _ ' ' _ own.spelled (by decide), own.bare]
      refine ⟨rfl, rfl, ?_⟩
      simpa [behind, startingWith, text] using again
    | cons next rest =>
      obtain ⟨lead, closed, parts⟩ := ih others
      have space : ∀ char ∈ [' '], isBlank char = true := by
        intro char member
        rw [List.mem_singleton.mp member]
        exact isBlank_of_isAsciiBlank ' ' (by decide)
      have again := ofPart_text written own [' '] space
      have text_eq : joined (written :: next :: rest) =
          written.keyword ++ ' ' :: (written.body ++ ' ' :: joined (next :: rest)) := by
        rw [joined, text, List.append_assoc, List.cons_append]
      rw [text_eq, ofText_spelled written.clause _ ' ' _ own.spelled (by decide),
        ofText_blank true written.body _ ' ' (by decide) (joined_head _ others) own.bare]
      refine ⟨rfl, closed, ?_⟩
      simp only [behind, startingWith, lead, List.map_cons, parts]
      simpa [text] using again

theorem sound_of_text (text : List Char) (closed : (ofText true text).unclosed = none)
    (blank : ∀ char ∈ text, isBlank char → isAsciiBlank char) :
    ∀ part ∈ (ofText true text).parts, (ofPart part).Sound := by
  intro part member
  have whole := whole_of_unclosed true text closed
  obtain ⟨found, alone⟩ := (cut_ofText text whole true).parts part member
  refine sound_ofPart part (fun char inside => blank char ?_) found alone
  rw [← text_of_whole text whole true]
  exact List.mem_append_right _ (List.mem_flatMap.mpr ⟨part, member, inside⟩)

end Written

end Lexed

end SqlCompose
