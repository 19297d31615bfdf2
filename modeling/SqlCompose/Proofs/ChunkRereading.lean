import SqlCompose.Proofs.Keywords
import SqlCompose.Proofs.Reparsing

/-! A chunk with a clause, written as its keyword, a space and its body, is read back. A trimmed body
can have a keyword at one of its edges that was none in its text, since trimming takes away blanks
that do not divide words; then there is more than one chunk. -/
namespace SqlCompose

namespace Text

theorem Whole.of_append (front back : List Char)
    (plain : ∀ char ∈ back, isQuote char = false ∧ char ≠ ')') (whole : Whole (front ++ back)) :
    Whole front := by
  induction back using List.reverseRecOn with
  | nil => rwa [List.append_nil] at whole
  | append_singleton init last ih =>
    obtain ⟨unquoted, ungrouped⟩ := plain last (by simp)
    rw [← List.append_assoc] at whole
    exact ih (fun char member => plain char (by simp [member]))
      (whole.of_snoc _ last unquoted ungrouped)

theorem Whole.of_prepend (front back : List Char)
    (plain : ∀ char ∈ front, isQuote char = false ∧ char ≠ '(') (whole : Whole (front ++ back)) :
    Whole back := by
  induction front with
  | nil => exact whole
  | cons char rest ih =>
    obtain ⟨⟨unquoted, ungrouped⟩, others⟩ := List.forall_mem_cons.mp plain
    exact ih others (whole.of_cons char _ unquoted ungrouped)

theorem Whole.trim (text : List Char) (whole : Whole text) : Whole (trim text) := by
  obtain ⟨front, back, split, leading, trailing⟩ := exists_trim text
  rw [split] at whole
  refine (whole.of_prepend front _ fun char member => ?_).of_append _ back fun char member => ?_
  · obtain ⟨unquoted, ungrouped, _⟩ := plain_of_isBlank char (leading char member)
    exact ⟨unquoted, ungrouped⟩
  · obtain ⟨unquoted, _, ungrouped⟩ := plain_of_isBlank char (trailing char member)
    exact ⟨unquoted, ungrouped⟩

end Text

open Text

theorem Clause.plain_of_spelled (clause : Clause) (spelled : List Char)
    (upper : spelled.map Char.toUpper = clause.keyword.toList) :
    ∀ char ∈ spelled, isQuote char = false ∧ char ≠ ')' := by
  intro char member
  rcases clause.spelled_lettered spelled upper char member with alphabetic | rfl
  · refine ⟨(plain_of_isAlpha char alphabetic).1, ?_⟩
    rintro rfl
    exact absurd alphabetic (by decide)
  · decide

namespace Lexed

theorem Bare.tail (boundary : Bool) (char : Char) (rest : List Char)
    (unquoted : isQuote char = false) (ungrouped : char ≠ '(')
    (bare : Bare boundary (char :: rest)) :
    (boundary = true → Clause.at? (char :: rest) = none) ∧ Bare (isAsciiBlank char) rest := by
  have parts : (ofText boundary (char :: rest)).parts = [] := by rw [bare]
  have unkeyed : boundary = true → Clause.at? (char :: rest) = none := by
    rintro rfl
    by_contra keyed
    obtain ⟨clause, found⟩ := Option.ne_none_iff_exists'.mp keyed
    rw [ofText_keyword char rest clause found] at parts
    cases parts
  rw [ofText_step boundary char rest unquoted ungrouped unkeyed] at parts
  exact ⟨unkeyed, bare_of_parts _ rest (bare.whole.of_cons char rest unquoted ungrouped) parts⟩

theorem Bare.of_blanks (boundary : Bool) (blanks text : List Char)
    (blank : ∀ char ∈ blanks, isBlank char = true) (bare : Bare boundary (blanks ++ text)) :
    ∃ other, Bare other text := by
  induction blanks generalizing boundary with
  | nil => exact ⟨boundary, bare⟩
  | cons char rest ih =>
    obtain ⟨isBlank, others⟩ := List.forall_mem_cons.mp blank
    obtain ⟨unquoted, ungrouped, _⟩ := plain_of_isBlank char isBlank
    exact ih _ others (bare.tail boundary char _ unquoted ungrouped).2

theorem Bare.of_unkeyed (boundary : Bool) (text : List Char)
    (unkeyed : ∀ clause : Clause, ¬clause.Begins text) (bare : Bare boundary text) :
    Bare true text := by
  refine bare_of_parts true text bare.whole ?_
  have parts : (ofText boundary text).parts = [] := by rw [bare]
  cases bare.whole with
  | nil => rw [ofText, finished]
  | set text rest closed whole =>
    rw [ofText_set true text rest closed]
    rwa [ofText_set boundary text rest closed] at parts
  | plain char rest unquoted ungrouped whole =>
    have none : Clause.at? (char :: rest) = none := by
      by_contra keyed
      obtain ⟨clause, found⟩ := Option.ne_none_iff_exists'.mp keyed
      exact unkeyed clause ((clause.begins_iff_at? _).mpr found)
    rw [ofText_step true char rest unquoted ungrouped fun _ => none]
    rwa [ofText_step boundary char rest unquoted ungrouped fun _ => none] at parts

/-- Without blanks behind it a text has no keyword either, unless it becomes one or ends with one. -/
theorem Bare.of_append_blanks (boundary : Bool) (text blanks : List Char) (whole : Whole text)
    (unended : ∀ clause : Clause, ¬clause.Ends text)
    (unspelled : boundary = true → ∀ clause : Clause,
      text.map Char.toUpper ≠ clause.keyword.toList)
    (bare : Bare boundary (text ++ blanks)) : Bare boundary text := by
  have parts : (ofText boundary (text ++ blanks)).parts = [] := by rw [bare]
  clear bare
  apply bare_of_parts boundary text whole
  induction whole generalizing boundary with
  | nil => rw [ofText, finished]
  | set text rest closed _ ih =>
    rw [List.append_assoc, ofText_set boundary text _ closed] at parts
    rw [ofText_set boundary text rest closed]
    refine ih false (fun clause => ?_) (by simp) parts
    rintro ⟨front, blank, spelled, rfl, isBlank, upper⟩
    exact unended clause ⟨text ++ front, blank, spelled, by rw [List.append_assoc], isBlank, upper⟩
  | plain char rest unquoted ungrouped _ ih =>
    have unkeyed (counts : boundary = true) : Clause.at? (char :: rest) = none := by
      subst counts
      by_contra keyed
      obtain ⟨clause, found⟩ := Option.ne_none_iff_exists'.mp keyed
      obtain ⟨spelled, tail, split, upper, bounded⟩ := (clause.begins_iff_at? _).mpr found
      cases tail with
      | nil => exact unspelled rfl clause (by rw [split, List.append_nil, upper])
      | cons gap more =>
        have begins : clause.Begins (char :: (rest ++ blanks)) := by
          refine ⟨spelled, gap :: more ++ blanks, ?_, upper, bounded⟩
          rw [← List.cons_append, split, List.append_assoc]
        rw [List.cons_append, ofText_keyword char _ clause ((clause.begins_iff_at? _).mp begins)]
          at parts
        cases parts
    rw [ofText_step boundary char rest unquoted ungrouped unkeyed]
    rw [List.cons_append] at parts
    have later : (ofText (isAsciiBlank char) (rest ++ blanks)).parts = [] := by
      rw [ofText_plain boundary char _ unquoted ungrouped] at parts
      split at parts
      · cases parts
      · exact parts
    refine ih (isAsciiBlank char) (fun clause => ?_) (fun isBlank clause upper => ?_) later
    · rintro ⟨front, blank, spelled, rfl, isBlank, upper⟩
      exact unended clause ⟨char :: front, blank, spelled, rfl, isBlank, upper⟩
    · exact unended clause ⟨[], char, rest, rfl, isBlank, upper⟩

theorem Bare.edges (text : List Char) (bare : Bare true text) :
    (∀ clause : Clause, ¬clause.Begins text) ∧ ∀ clause : Clause, ¬clause.Ends text := by
  have keyless (front rest : List Char) (clause : Clause)
      (read : ofText true text = (ofText true rest).behind front) (begins : clause.Begins rest) :
      False := by
    have found := (clause.begins_iff_at? rest).mp begins
    have parts := congrArg Lexed.parts (bare.symm.trans read)
    cases rest with
    | nil => cases clause <;> cases found
    | cons char rest =>
      rw [ofText_keyword char rest clause found] at parts
      cases parts
  refine ⟨fun clause begins => keyless [] text clause rfl begins, fun clause ends => ?_⟩
  obtain ⟨front, blank, spelled, rfl, isBlank, upper⟩ := ends
  obtain ⟨first, tail, split, other, _⟩ := clause.keyword_first_letter
  have apart : ∀ char ∈ spelled.head?, char.toUpper ≠ 'B' := by
    intro char member
    have head := congrArg List.head? upper
    rw [List.head?_map, Option.mem_def.mp member, split] at head
    exact Option.some.inj head ▸ other
  have soft : ∀ char ∈ blank :: spelled, isQuote char = false ∧ char ≠ ')' := by
    intro char member
    rcases List.mem_cons.mp member with rfl | member
    · obtain ⟨unquoted, _, ungrouped⟩ := plain_of_isBlank char (isBlank_of_isAsciiBlank char isBlank)
      exact ⟨unquoted, ungrouped⟩
    · exact clause.plain_of_spelled spelled upper char member
  have before := bare.before_blank front spelled blank true isBlank apart
    (bare.whole.of_append front _ soft)
  exact keyless _ spelled clause (ofText_blank true front spelled blank isBlank apart before)
    ⟨spelled, [], by rw [List.append_nil], upper, by simp⟩

theorem bare_trim_iff (text : List Char) (bare : Bare true text) :
    Bare true (trim text) ↔ (∀ clause : Clause, ¬clause.Begins (trim text)) ∧
      ∀ clause : Clause, ¬clause.Ends (trim text) := by
  refine ⟨fun trimmed => trimmed.edges, fun ⟨unkeyed, unended⟩ => ?_⟩
  have whole := bare.whole.trim
  obtain ⟨front, back, split, leading, trailing⟩ := exists_trim text
  rw [split] at bare
  obtain ⟨boundary, ended⟩ := bare.of_blanks true front _ leading
  refine Bare.of_unkeyed boundary _ unkeyed (ended.of_append_blanks boundary _ back whole unended ?_)
  exact fun _ clause upper => unkeyed clause ⟨_, [], by rw [List.append_nil], upper, by simp⟩

namespace Written

theorem ofText_text (written : Written)
    (spelled : written.keyword.map Char.toUpper = written.clause.keyword.toList) :
    ofText true written.text =
      ((ofText true written.body).behind (written.keyword ++ [' '])).startingWith written.clause :=
  ofText_spelled written.clause written.keyword ' ' written.body spelled (by decide)

/-- A clause whose body is closed is read as a chunk with that keyword, and there are more chunks if
the body has keywords. -/
theorem tokenize_text (written : Written)
    (spelled : written.keyword.map Char.toUpper = written.clause.keyword.toList)
    (whole : Whole written.body) :
    ∃ first, first.clause = some written.clause ∧ first.keyword = String.ofList written.keyword ∧
      tokenize (String.ofList written.text) = .ok (first :: (ofText true written.body).tagged) := by
  have read := written.ofText_text spelled
  have closed : (ofText true written.text).unclosed = none := by
    rw [read]
    exact unclosed_of_whole true _ whole
  have length := written.clause.length_spelled written.keyword spelled
  refine ⟨⟨some written.clause,
    String.ofList (written.keyword ++ [' '] ++ (ofText true written.body).lead)⟩, rfl, ?_, ?_⟩
  · simp only [Chunk.keyword, String.toList_ofList, length, List.append_assoc, List.take_left]
  · rw [tokenize_closed _ _ (by rw [String.toList_ofList]) closed, read]
    rfl

end Written

end Lexed

namespace Chunk

/-- A chunk of a text is a clause that stands in it, with the body trimmed. -/
theorem exists_written (sql : String) (chunks : List Chunk) (read : tokenize sql = .ok chunks)
    (chunk : Chunk) (member : chunk ∈ chunks) (named : chunk.clause ≠ none) :
    ∃ written : Lexed.Written, written.triple = chunk.triple ∧
      chunk.written = String.ofList written.text ∧
      written.keyword.map Char.toUpper = written.clause.keyword.toList ∧
      ∃ rest, written.body = trim rest ∧ Lexed.Bare true rest ∧ rest <:+ chunk.text.toList := by
  obtain ⟨part, rfl, found, alone⟩ := Lexed.part_of_tokenize sql chunks read chunk member named
  obtain ⟨rest, split, spelled, body, bare⟩ := Lexed.Written.ofPart_opens part found alone
  have triple : (Lexed.Written.ofPart part).triple =
      Chunk.triple ⟨some part.1, String.ofList part.2⟩ := by
    simp [Chunk.triple, keyword, Chunk.body, Lexed.Written.ofPart, Lexed.Written.triple]
  refine ⟨_, triple, ?_, spelled, rest.tail, body, bare, ?_⟩
  · rw [Lexed.Written.ofList_text, triple]
    rfl
  · rw [String.toList_ofList, split]
    exact (List.tail_suffix rest).trans (List.suffix_append _ _)

/-- What a chunk with a clause is written as is read, with the keyword in front. It is read as that
one chunk exactly when the body neither begins nor ends with a keyword, so always if the chunk has no
blanks but ASCII blanks. -/
theorem rereads_iff (sql : String) (chunks : List Chunk) (read : tokenize sql = .ok chunks)
    (chunk : Chunk) (member : chunk ∈ chunks) (named : chunk.clause ≠ none) :
    (∃ first others, tokenize chunk.written = .ok (first :: others) ∧
      first.clause = chunk.clause ∧ first.keyword = chunk.keyword) ∧
    (chunk.Rereads ↔ (∀ clause : Clause, ¬clause.Begins chunk.body.toList) ∧
      ∀ clause : Clause, ¬clause.Ends chunk.body.toList) ∧
    ((∀ char ∈ chunk.text.toList, isBlank char → isAsciiBlank char) → chunk.Rereads) := by
  obtain ⟨written, triple, text, spelled, rest, body, bare, inside⟩ :=
    exists_written sql chunks read chunk member named
  have clauses : some written.clause = chunk.clause := congrArg Prod.fst triple
  have keywords : String.ofList written.keyword = chunk.keyword :=
    congrArg (fun read => read.2.1) triple
  have bodies : String.ofList written.body = chunk.body := congrArg (fun read => read.2.2) triple
  have whole : Whole written.body := body ▸ bare.whole.trim
  obtain ⟨first, clause, keyword, tokenized⟩ := written.tokenize_text spelled whole
  rw [← text] at tokenized
  have bare_iff : chunk.Rereads ↔ Lexed.Bare true written.body := by
    constructor
    · rintro ⟨again, single, _⟩
      rw [tokenized] at single
      have none := (List.cons.inj (Except.ok.inj single)).2
      exact Lexed.bare_of_parts true _ whole (List.map_eq_nil_iff.mp none)
    · intro unkeyed
      have edges := trim_edges rest
      rw [← body] at edges
      have sound : written.Sound := ⟨spelled, unkeyed, edges.1, edges.2⟩
      obtain ⟨again, retokenized, same⟩ :=
        Lexed.Written.tokenize_joined [written] (by simpa using sound)
      obtain ⟨only, rfl, single⟩ := List.map_eq_singleton_iff.mp same
      exact ⟨only, by rw [text]; exact retokenized, single.trans triple⟩
  refine ⟨⟨first, _, tokenized, by rw [clause, clauses], by rw [keyword, keywords]⟩, ?_, ?_⟩
  · rw [bare_iff, ← bodies, String.toList_ofList, body]
    exact Lexed.bare_trim_iff rest bare
  · intro blank
    rw [bare_iff, body]
    exact bare.trim rest fun char member => blank char (inside.mem member)

/-- Blanks that are not ASCII blanks stand at both ends of a body, and no keyword beside them. -/
theorem rereads_iff_unicode_blanks :
    tokenize "SELECT \u00a0a\x0b, from(x)\u3000" =
      .ok [⟨some .select, "SELECT \u00a0a\x0b, from(x)\u3000"⟩] ∧
    Chunk.Rereads ⟨some .select, "SELECT \u00a0a\x0b, from(x)\u3000"⟩ := by
  have read : tokenize "SELECT \u00a0a\x0b, from(x)\u3000" =
      .ok [⟨some .select, "SELECT \u00a0a\x0b, from(x)\u3000"⟩] :=
    tokenize_of_shown _ _ (by decide +kernel)
  obtain ⟨_, rereads, _⟩ := rereads_iff _ _ read _ List.mem_cons_self (by simp)
  refine ⟨read, rereads.mpr ⟨fun clause begins => ?_, fun clause ends => ?_⟩⟩
  · have none : Clause.at? (body ⟨some .select, "SELECT \u00a0a\x0b, from(x)\u3000"⟩).toList =
        none := by decide +kernel
    rw [clause.begins_iff_at?, none] at begins
    cases begins
  · obtain ⟨front, blank, spelled, split, isBlank, upper⟩ := ends
    have last : (body ⟨some .select, "SELECT \u00a0a\x0b, from(x)\u3000"⟩).toList.getLast? =
        some ')' := by decide +kernel
    rw [split, List.getLast?_append_cons] at last
    rcases List.mem_cons.mp (List.mem_of_getLast? last) with rfl | member
    · exact absurd isBlank (by decide)
    · exact (clause.plain_of_spelled spelled upper _ member).2 rfl

/-- A vertical tab before FROM and a no-break space behind it are trimmed, and FROM becomes a
keyword. -/
theorem not_rereads_of_trimmed_keyword :
    (tokenize "SELECT \x0bFROM x" = .ok [⟨some .select, "SELECT \x0bFROM x"⟩] ∧
      ¬Chunk.Rereads ⟨some .select, "SELECT \x0bFROM x"⟩) ∧
    tokenize "SELECT x FROM\u00a0" = .ok [⟨some .select, "SELECT x FROM\u00a0"⟩] ∧
      ¬Chunk.Rereads ⟨some .select, "SELECT x FROM\u00a0"⟩ := by
  refine ⟨⟨tokenize_of_shown _ _ (by decide +kernel), ?_⟩,
    tokenize_of_shown _ _ (by decide +kernel), ?_⟩
  · rintro ⟨again, single, _⟩
    have pair : tokenize (written ⟨some .select, "SELECT \x0bFROM x"⟩) =
        .ok [⟨some .select, "SELECT "⟩, ⟨some .source, "FROM x"⟩] :=
      tokenize_of_shown _ _ (by decide +kernel)
    rw [pair] at single
    cases single
  · rintro ⟨again, single, _⟩
    have pair : tokenize (written ⟨some .select, "SELECT x FROM\u00a0"⟩) =
        .ok [⟨some .select, "SELECT x "⟩, ⟨some .source, "FROM"⟩] :=
      tokenize_of_shown _ _ (by decide +kernel)
    rw [pair] at single
    cases single

end Chunk

end SqlCompose
