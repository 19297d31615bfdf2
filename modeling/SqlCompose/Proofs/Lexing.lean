import SqlCompose.Proofs.Scanning

/-! Reading text in pieces: a text can be cut at its keywords and put together again, and every
piece is read as it was. -/
namespace SqlCompose

namespace Lexed

open Text

theorem ofText_plain (boundary : Bool) (char : Char) (rest : List Char)
    (unquoted : isQuote char = false) (ungrouped : char ≠ '(') :
    ofText boundary (char :: rest) =
      match if boundary then Clause.at? (char :: rest) else none with
      | some clause => ((ofText (isAsciiBlank char) rest).behind [char]).startingWith clause
      | none => (ofText (isAsciiBlank char) rest).behind [char] := by
  cases found : if boundary then Clause.at? (char :: rest) else none <;>
    simp [ofText, unquoted, ungrouped, found]

theorem ofText_step (boundary : Bool) (char : Char) (rest : List Char)
    (unquoted : isQuote char = false) (ungrouped : char ≠ '(')
    (unkeyed : boundary = true → Clause.at? (char :: rest) = none) :
    ofText boundary (char :: rest) = (ofText (isAsciiBlank char) rest).behind [char] := by
  rw [ofText_plain boundary char rest unquoted ungrouped]
  cases boundary with
  | false => rfl
  | true =>
    rw [if_pos rfl, unkeyed rfl]

theorem ofText_keyword (char : Char) (rest : List Char) (clause : Clause)
    (found : Clause.at? (char :: rest) = some clause) :
    ofText true (char :: rest) =
      ((ofText false rest).behind [char]).startingWith clause := by
  obtain ⟨first, tail, same, _, alphabetic⟩ := Clause.at?_head _ clause found
  cases same
  obtain ⟨unquoted, ungrouped, unblank⟩ := Clause.plain_of_isAlpha char alphabetic
  rw [ofText_plain true char rest unquoted ungrouped, if_pos rfl, found, unblank]

theorem ofText_unclosed_literal (boundary : Bool) (quote : Char) (text : List Char)
    (quoted : isQuote quote = true) (unread : literal? quote text = none) :
    ofText boundary (quote :: text) = stopped .quote := by
  rw [ofText]
  simp only [quoted, if_true]
  split
  · rfl
  · rename_i found
    rw [unread] at found
    cases found

theorem ofText_unclosed_group (boundary : Bool) (text : List Char) (unread : group? text = none) :
    ofText boundary ('(' :: text) = stopped .group := by
  rw [ofText]
  have unquoted : isQuote '(' = false := rfl
  simp only [unquoted, Bool.false_eq_true, if_false, if_true]
  split
  · rfl
  · rename_i found
    rw [unread] at found
    cases found

theorem ofText_literal (boundary : Bool) (quote : Char) (part left text : List Char)
    (quoted : isQuote quote = true) (read : literal? quote text = some (part, left)) :
    ofText boundary (quote :: text) = (ofText false left).behind (quote :: part) := by
  rw [ofText]
  simp only [quoted, if_true]
  split
  · rename_i unread
    rw [read] at unread
    cases unread
  · rename_i found
    rw [read] at found
    cases found
    rfl

theorem ofText_group (boundary : Bool) (part left text : List Char)
    (read : group? text = some (part, left)) :
    ofText boundary ('(' :: text) = (ofText false left).behind ('(' :: part) := by
  rw [ofText]
  have unquoted : isQuote '(' = false := rfl
  simp only [unquoted, Bool.false_eq_true, if_false, if_true]
  split
  · rename_i unread
    rw [read] at unread
    cases unread
  · rename_i found
    rw [read] at found
    cases found
    rfl

theorem ofText_set (boundary : Bool) (text rest : List Char) (closed : Sealed text) :
    ofText boundary (text ++ rest) = (ofText false rest).behind text := by
  cases closed with
  | literal quote part quoted read =>
    exact ofText_literal boundary quote part rest (part ++ rest) quoted (read rest)
  | group part read => exact ofText_group boundary part rest (part ++ rest) (read rest)

theorem whole_of_unclosed (boundary : Bool) (text : List Char)
    (closed : (ofText boundary text).unclosed = none) : Whole text := by
  induction boundary, text using ofText.induct with
  | case1 boundary => exact .nil
  | case2 boundary char rest quoted unread =>
    rw [ofText_unclosed_literal boundary char rest quoted unread] at closed
    cases closed
  | case3 boundary char rest quoted part left read ih =>
    rw [ofText_literal boundary char part left rest quoted read] at closed
    have split := (readUntil_append _ _ _ _ _ read).1
    have sealed : Sealed (char :: part) := .literal char part quoted fun more =>
      readUntil_alone _ _ _ _ _ more read
    rw [split]
    exact .set (char :: part) left sealed (ih closed)
  | case4 boundary rest unread unquoted =>
    rw [ofText_unclosed_group boundary rest unread] at closed
    cases closed
  | case5 boundary rest part left read unquoted ih =>
    rw [ofText_group boundary part left rest read] at closed
    have split := (readUntil_append _ _ _ _ _ read).1
    have sealed : Sealed ('(' :: part) := .group part fun more =>
      readUntil_alone _ _ _ _ _ more read
    rw [split]
    exact .set ('(' :: part) left sealed (ih closed)
  | case6 boundary char rest unquoted ungrouped clause found ih =>
    rw [Bool.not_eq_true] at unquoted
    rw [ofText_plain boundary char rest unquoted ungrouped] at closed
    refine .plain char rest unquoted ungrouped (ih ?_)
    split at closed
    · exact closed
    · exact closed
  | case7 boundary char rest unquoted ungrouped found ih =>
    rw [Bool.not_eq_true] at unquoted
    rw [ofText_plain boundary char rest unquoted ungrouped] at closed
    refine .plain char rest unquoted ungrouped (ih ?_)
    split at closed
    · exact closed
    · exact closed

theorem unclosed_of_whole (boundary : Bool) (text : List Char) (whole : Whole text) :
    (ofText boundary text).unclosed = none := by
  induction whole generalizing boundary with
  | nil => rw [ofText, finished]
  | set text rest closed _ ih =>
    rw [ofText_set boundary text rest closed]
    exact ih false
  | plain char rest unquoted ungrouped _ ih =>
    rw [ofText_plain boundary char rest unquoted ungrouped]
    split
    · exact ih _
    · exact ih _

/-- A text without a keyword, all closed. -/
def Bare (boundary : Bool) (text : List Char) : Prop := ofText boundary text = ⟨text, [], none⟩

theorem Bare.whole (boundary : Bool) (text : List Char) (bare : Bare boundary text) :
    Whole text := by
  apply whole_of_unclosed boundary
  rw [bare]

theorem bare_of_parts (boundary : Bool) (text : List Char) (whole : Whole text)
    (none : (ofText boundary text).parts = []) : Bare boundary text := by
  unfold Bare
  induction whole generalizing boundary with
  | nil => rw [ofText, finished]
  | set text rest closed _ ih =>
    rw [ofText_set boundary text rest closed] at none ⊢
    rw [ih false none]
    rfl
  | plain char rest unquoted ungrouped _ ih =>
    rw [ofText_plain boundary char rest unquoted ungrouped] at none ⊢
    split at none
    · cases none
    · rw [ih _ none]
      rfl

/-- Behind a text without a keyword reading goes on, if what comes completes none. -/
theorem ofText_seam (boundary : Bool) (text rest : List Char) (seam : Char)
    (unquoted : isQuote seam = false) (ungrouped : seam ≠ '(')
    (unkeyed : ∀ text, Clause.at? text = none → Clause.at? (text ++ seam :: rest) = none)
    (bare : Bare boundary text) :
    ofText boundary (text ++ seam :: rest) =
      (ofText (isAsciiBlank seam) rest).behind (text ++ [seam]) := by
  have whole := bare.whole
  induction whole generalizing boundary with
  | nil => exact ofText_step boundary seam rest unquoted ungrouped fun _ => unkeyed [] rfl
  | set text more closed _ ih =>
    have tail : Bare false more := by
      have parts : (ofText boundary (text ++ more)).parts = [] := by rw [bare]
      rw [ofText_set boundary text more closed] at parts
      exact bare_of_parts false more (by assumption) parts
    rw [List.append_assoc, ofText_set boundary text _ closed, ih false tail]
    simp [behind]
  | plain char more ordinary opened _ ih =>
    have here : boundary = true → Clause.at? (char :: more) = none := by
      intro counted
      cases found : Clause.at? (char :: more) with
      | none => rfl
      | some clause =>
        rw [Bare, counted, ofText_keyword char more clause found] at bare
        cases bare
    have tail : Bare (isAsciiBlank char) more := by
      have parts : (ofText boundary (char :: more)).parts = [] := by rw [bare]
      rw [ofText_step boundary char more ordinary opened here] at parts
      exact bare_of_parts _ more (by assumption) parts
    rw [List.cons_append, ofText_step boundary char _ ordinary opened, ih _ tail]
    · simp [behind]
    · exact fun counted => unkeyed (char :: more) (here counted)

theorem ofText_blank (boundary : Bool) (text rest : List Char) (blank : Char)
    (isBlank : isAsciiBlank blank = true) (apart : ∀ char ∈ rest.head?, char.toUpper ≠ 'B')
    (bare : Bare boundary text) :
    ofText boundary (text ++ blank :: rest) = (ofText true rest).behind (text ++ [blank]) := by
  obtain ⟨unquoted, ungrouped⟩ := plain_of_isAsciiBlank blank isBlank
  have unkeyed (front : List Char) (none : Clause.at? front = none) :
      Clause.at? (front ++ blank :: rest) = .none :=
    (Clause.at?_blank front rest blank isBlank apart).trans none
  rw [ofText_seam boundary text rest blank unquoted ungrouped unkeyed bare, isBlank]

theorem ofText_gap (boundary : Bool) (blank : Char) (rest : List Char)
    (isBlank : isAsciiBlank blank = true) :
    ofText boundary (blank :: rest) = (ofText true rest).behind [blank] := by
  obtain ⟨unquoted, ungrouped⟩ := plain_of_isAsciiBlank blank isBlank
  rw [ofText_step boundary blank rest unquoted ungrouped fun _ =>
    Clause.at?_of_unlettered blank rest (Clause.isAlpha_of_isAsciiBlank blank isBlank), isBlank]

theorem tokenize_closed (sql : String) (lexed : Lexed) (read : ofText true sql.toList = lexed)
    (closed : lexed.unclosed = none) : tokenize sql = .ok lexed.chunks := by
  simp only [tokenize, read, closed]

theorem tokenize_stopped (sql : String) (lexed : Lexed) (unclosed : Unclosed)
    (read : ofText true sql.toList = lexed) (stopped : lexed.unclosed = some unclosed) :
    tokenize sql =
      .error (.parse (unclosed.fault (byteSize lexed.text)) lexed.tags sql) := by
  simp only [tokenize, read, stopped]

theorem unclosed_of_tokenize (sql : String) (chunks : List Chunk)
    (success : tokenize sql = .ok chunks) : (ofText true sql.toList).unclosed = none := by
  cases stopped : (ofText true sql.toList).unclosed with
  | none => rfl
  | some unclosed =>
    rw [tokenize_stopped sql _ unclosed rfl stopped] at success
    cases success

theorem part_of_named (lexed : Lexed) (chunk : Chunk) (member : chunk ∈ lexed.chunks)
    (named : chunk.clause ≠ none) :
    ∃ part ∈ lexed.parts, chunk = ⟨some part.1, String.ofList part.2⟩ := by
  rcases List.mem_append.mp member with leading | tagged
  · rw [Lexed.leading] at leading
    split at leading
    · cases leading
    · rw [List.mem_singleton.mp leading] at named
      exact absurd rfl named
  · obtain ⟨part, held, rfl⟩ := List.mem_map.mp tagged
    exact ⟨part, held, rfl⟩

theorem text_of_whole (text : List Char) (whole : Whole text) (boundary : Bool) :
    (ofText boundary text).text = text := by
  induction whole generalizing boundary with
  | nil => rw [ofText, finished, Lexed.text, List.flatMap_nil, List.append_nil]
  | set text rest closed _ ih =>
    rw [ofText_set boundary text rest closed]
    have tail := ih false
    simp only [Lexed.text, behind, List.append_assoc] at tail ⊢
    rw [tail]
  | plain char rest unquoted ungrouped _ ih =>
    have tail := ih (isAsciiBlank char)
    rw [ofText_plain boundary char rest unquoted ungrouped]
    split
    · simp only [Lexed.text, behind, startingWith, List.nil_append, List.flatMap_cons,
        List.cons_append] at tail ⊢
      rw [tail]
    · simp only [Lexed.text, behind, List.nil_append, List.cons_append] at tail ⊢
      rw [tail]

structure Cut (boundary : Bool) (lexed : Lexed) : Prop where
  lead : Bare boundary lexed.lead
  parts : ∀ part ∈ lexed.parts, Clause.at? part.2 = some part.1 ∧
    ofText true part.2 = ⟨[], [part], none⟩
  -- Behind some lead a keyword counts because of the blank before it.
  seam : lexed.parts = [] ∨ lexed.lead = [] ∧ boundary = true ∨
    ∃ front blank, lexed.lead = front ++ [blank] ∧ isAsciiBlank blank = true

theorem Cut.apart {boundary : Bool} {lexed : Lexed} (cut : Cut boundary lexed) :
    ∀ char ∈ (lexed.parts.flatMap Prod.snd).head?, char.toUpper ≠ 'B' := by
  intro char member
  cases parts : lexed.parts with
  | nil =>
    rw [parts] at member
    cases member
  | cons part rest =>
    have keyed := (cut.parts part (by rw [parts]; exact List.mem_cons_self)).1
    obtain ⟨first, tail, begins, other, _⟩ := Clause.at?_head part.2 part.1 keyed
    rw [parts, List.flatMap_cons, begins] at member
    cases member
    exact other

/-- The keyword at a place is told by the text before the next keyword. -/
theorem Cut.at?_lead (char : Char) (rest : List Char) (whole : Whole rest)
    (cut : Cut (isAsciiBlank char) (ofText (isAsciiBlank char) rest)) :
    Clause.at? (char :: (ofText (isAsciiBlank char) rest).lead) = Clause.at? (char :: rest) := by
  have split := text_of_whole rest whole (isAsciiBlank char)
  have apart := cut.apart
  rw [Lexed.text] at split
  rcases cut.seam with none | ⟨empty, blank⟩ | ⟨front, blank, ends, isBlank⟩
  · rw [none, List.flatMap_nil, List.append_nil] at split
    rw [split]
  · have unlettered := Clause.isAlpha_of_isAsciiBlank char blank
    rw [Clause.at?_of_unlettered char _ unlettered, Clause.at?_of_unlettered char _ unlettered]
  · have before := Clause.at?_blank (char :: front) [] blank isBlank (by simp)
    have behind := Clause.at?_blank (char :: front) _ blank isBlank apart
    rw [ends] at split ⊢
    conv_rhs => rw [← split]
    rw [List.append_assoc]
    exact before.trans behind.symm

theorem cut_ofText (text : List Char) (whole : Whole text) (boundary : Bool) :
    Cut boundary (ofText boundary text) := by
  -- By what is read in one step: a literal or a group as a whole, anything else by the character.
  induction whole generalizing boundary with
  | nil =>
    rw [ofText, finished]
    exact ⟨by rw [Bare, ofText, finished], by simp, .inl rfl⟩
  | set text rest closed whole ih =>
    have cut := ih false
    rw [ofText_set boundary text rest closed]
    refine ⟨?_, cut.parts, ?_⟩
    · rw [Bare, behind, ofText_set boundary text _ closed, cut.lead]
      rfl
    · rcases cut.seam with none | ⟨_, never⟩ | ⟨front, blank, ends, isBlank⟩
      · exact .inl none
      · cases never
      · refine .inr (.inr ⟨text ++ front, blank, ?_, isBlank⟩)
        rw [behind, ends, List.append_assoc]
  | plain char rest unquoted ungrouped whole ih =>
    have cut := ih (isAsciiBlank char)
    have told := cut.at?_lead char rest whole
    cases found : if boundary then Clause.at? (char :: rest) else none with
    | some clause =>
      cases boundary with
      | false => cases found
      | true =>
        rw [if_pos rfl] at found
        rw [found] at told
        obtain ⟨_, _, same, _, alphabetic⟩ := Clause.at?_head _ clause found
        cases same
        have unblank := (Clause.plain_of_isAlpha char alphabetic).2.2
        rw [unblank] at cut told
        rw [ofText_keyword char rest clause found]
        refine ⟨by rw [Bare, startingWith, ofText, finished], ?_, .inr (.inl ⟨rfl, rfl⟩)⟩
        intro part member
        rcases List.mem_cons.mp member with rfl | later
        · refine ⟨told, ?_⟩
          rw [behind, List.singleton_append, ofText_keyword char _ clause told, cut.lead]
          rfl
        · exact cut.parts part later
    | none =>
      have unkeyed (more : List Char)
          (same : Clause.at? (char :: more) = Clause.at? (char :: rest)) :
          boundary = true → Clause.at? (char :: more) = none := by
        intro counted
        rw [if_pos counted] at found
        rw [same, found]
      rw [ofText_step boundary char rest unquoted ungrouped (unkeyed rest rfl)]
      refine ⟨?_, cut.parts, ?_⟩
      · rw [Bare, behind, List.singleton_append,
          ofText_step boundary char _ unquoted ungrouped (unkeyed _ told), cut.lead]
        rfl
      · rcases cut.seam with none | ⟨empty, blank⟩ | ⟨front, blank, ends, isBlank⟩
        · exact .inl none
        · refine .inr (.inr ⟨[], char, ?_, blank⟩)
          rw [behind, empty]
          rfl
        · refine .inr (.inr ⟨char :: front, blank, ?_, isBlank⟩)
          rw [behind, ends]
          rfl

theorem part_of_tokenize (sql : String) (chunks : List Chunk) (read : tokenize sql = .ok chunks)
    (chunk : Chunk) (member : chunk ∈ chunks) (named : chunk.clause ≠ none) :
    ∃ part, chunk = ⟨some part.1, String.ofList part.2⟩ ∧ Clause.at? part.2 = some part.1 ∧
      ofText true part.2 = ⟨[], [part], none⟩ := by
  have closed := unclosed_of_tokenize sql chunks read
  cases read.symm.trans (tokenize_closed sql _ rfl closed)
  obtain ⟨part, held, same⟩ := part_of_named _ chunk member named
  have whole := whole_of_unclosed true sql.toList closed
  exact ⟨part, same, (cut_ofText _ whole true).parts part held⟩

theorem ofText_letters (letters rest : List Char)
    (alphabetic : ∀ char ∈ letters, char.isAlpha = true) :
    ofText false (letters ++ rest) = (ofText false rest).behind letters := by
  induction letters with
  | nil => rfl
  | cons char letters ih =>
    obtain ⟨unquoted, ungrouped, unblank⟩ :=
      Clause.plain_of_isAlpha char (alphabetic char List.mem_cons_self)
    have tail := ih fun other member => alphabetic other (List.mem_cons_of_mem _ member)
    rw [List.cons_append, ofText_step false char _ unquoted ungrouped (by simp), unblank, tail]
    rfl

theorem ofText_word (word rest : List Char) (alphabetic : ∀ char ∈ word, char.isAlpha = true)
    (unkeyed : Clause.at? (word ++ ' ' :: rest) = none) :
    ofText true (word ++ ' ' :: rest) = (ofText true rest).behind (word ++ [' ']) := by
  cases word with
  | nil => exact ofText_gap true ' ' rest (by decide)
  | cons char letters =>
    obtain ⟨unquoted, ungrouped, unblank⟩ :=
      Clause.plain_of_isAlpha char (alphabetic char List.mem_cons_self)
    have others := ofText_letters letters (' ' :: rest) fun other member =>
      alphabetic other (List.mem_cons_of_mem _ member)
    rw [List.cons_append] at unkeyed ⊢
    rw [ofText_step true char _ unquoted ungrouped fun _ => unkeyed, unblank, others,
      ofText_gap false ' ' rest (by decide)]
    simp [behind]

end Lexed

end SqlCompose
