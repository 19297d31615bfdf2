import Mathlib.Data.List.Permutation
import SqlCompose.Proofs.Rereading
import SqlCompose.Proofs.Tokens

/-! Statements of a script are scripts of one statement: taking comments out and trimming make no
comment, no literal and no semicolon that was not there. -/
namespace SqlCompose.Script

open Text

theorem unblank_of_isQuote (quote : Char) (quoted : isQuote quote = true) :
    isBlank quote = false := by
  rcases eq_of_isQuote quote quoted with rfl | rfl | rfl <;> decide

/-- What does not begin with a mark of comments may follow a token in place of what does. -/
theorem Token.stands_of_head (token : Token) (after left : List Char)
    (uncommented : token.kept = token.text)
    (marks : ∀ mark, mark = '-' ∨ mark = '*' → left.head? = some mark → after.head? = some mark)
    (stands : token.Stands after) : token.Stands left := by
  cases token with
  | literal quote part => exact stands
  | lineComment part => simp [kept, text] at uncommented
  | blockComment part => simp [kept, text] at uncommented
  | char value =>
    obtain ⟨unquoted, unlined, unblocked⟩ := stands
    rw [mark_prefix_iff] at unlined unblocked
    refine ⟨unquoted, ?_, ?_⟩
    · rw [mark_prefix_iff]
      exact fun line => unlined ⟨line.1, marks '-' (.inl rfl) line.2⟩
    · rw [mark_prefix_iff]
      exact fun block => unblocked ⟨block.1, marks '*' (.inr rfl) block.2⟩

inductive Settled : List Char → Prop
  | nil : Settled []
  | step (token : Token) (after : List Char) (uncommented : token.kept = token.text)
      (uncut : token ≠ .char ';') (stands : token.Stands after) (rest : Settled after) :
      Settled (token.text ++ after)

theorem head?_cut (text : List Char) (tokens : List Token) (rest : List Char)
    (reading : Reading text tokens rest) (mark : Char) (unblank : isBlank mark = false)
    (first : List Char) (others : List (List Char)) (same : cut tokens = first :: others)
    (head : first.head? = some mark) : text.head? = some mark := by
  induction reading generalizing first others with
  | stuck rest _ =>
    cases same
    cases head
  | step token after tokens rest stands _ ih =>
    by_cases semicolon : token = .char ';'
    · rw [semicolon, cut_semicolon] at same
      cases same
      cases head
    · rw [cut_cons token tokens semicolon] at same
      cases later : cut tokens with
      | nil =>
        rw [later] at same
        cases same
      | cons next more =>
        rw [later, List.modifyHead_cons] at same
        cases same
        cases token with
        | literal quote part => exact head
        | lineComment part =>
          have behind := ih next others later head
          rw [stands.2 mark behind] at unblank
          exact absurd unblank (by decide)
        | blockComment part =>
          cases head
          exact absurd unblank (by decide)
        | char value => exact head

theorem settled_cut (text : List Char) (tokens : List Token) (rest : List Char)
    (reading : Reading text tokens rest) : ∀ piece ∈ cut tokens, Settled piece := by
  induction reading with
  | stuck rest _ =>
    intro piece member
    rw [cut_nil, List.mem_singleton] at member
    exact member ▸ .nil
  | step token after tokens rest stands reading ih =>
    by_cases semicolon : token = .char ';'
    · rw [semicolon, cut_semicolon]
      exact List.forall_mem_cons.mpr ⟨.nil, ih⟩
    · rw [cut_cons token tokens semicolon]
      cases later : cut tokens with
      | nil => simp
      | cons first others =>
        rw [later] at ih
        obtain ⟨settled, rests⟩ := List.forall_mem_cons.mp ih
        rw [List.modifyHead_cons]
        refine List.forall_mem_cons.mpr ⟨?_, rests⟩
        have marks (mark : Char) (either : mark = '-' ∨ mark = '*')
            (head : first.head? = some mark) : after.head? = some mark := by
          refine head?_cut after tokens rest reading mark ?_ first others later head
          rcases either with rfl | rfl <;> decide
        cases token with
        | literal quote part => exact .step _ first rfl semicolon stands settled
        | lineComment part => exact settled
        | blockComment part =>
          refine .step (.char ' ') first rfl (by decide) ⟨rfl, ?_, ?_⟩ settled
          · rw [mark_prefix_iff]
            simp
          · rw [mark_prefix_iff]
            simp
        | char value =>
          exact .step _ first rfl semicolon
            (Token.stands_of_head _ after first rfl marks stands) settled

namespace Settled

theorem pieces_semicolon (text rest : List Char) (settled : Settled text) :
    pieces (text ++ ';' :: rest) =
      (pieces rest).map fun found => ⟨text, found.first :: found.others⟩ := by
  induction settled with
  | nil =>
    rw [List.nil_append, pieces]
    rfl
  | step token after uncommented uncut stands _ ih =>
    have still : token.Stands (after ++ ';' :: rest) := by
      refine token.stands_of_head after _ uncommented (fun mark either head => ?_) stands
      cases after with
      | nil =>
        cases head
        exact absurd either (by decide)
      | cons char after => exact head
    rw [List.append_assoc, pieces_token token _ still uncut, ih, uncommented]
    cases pieces rest <;> rfl

theorem pieces_eq (text : List Char) (settled : Settled text) : pieces text = .ok ⟨text, []⟩ := by
  induction settled with
  | nil => rw [pieces]
  | step token after uncommented uncut stands _ ih =>
    rw [pieces_token token after stands uncut, ih, uncommented]
    rfl

theorem of_blank_cons (char : Char) (rest : List Char) (blank : isBlank char = true)
    (settled : Settled (char :: rest)) : Settled rest := by
  generalize whole : char :: rest = text at settled
  cases settled with
  | nil => cases whole
  | step token after uncommented uncut stands later =>
    cases token with
    | literal quote part =>
      cases whole
      rw [unblank_of_isQuote char stands.1] at blank
      cases blank
    | lineComment part => simp [Token.kept, Token.text] at uncommented
    | blockComment part => simp [Token.kept, Token.text] at uncommented
    | char value =>
      cases whole
      exact later

theorem of_blank_append (front blanks : List Char) (blank : ∀ char ∈ blanks, isBlank char = true)
    (settled : Settled (front ++ blanks)) : Settled front := by
  generalize whole : front ++ blanks = text at settled
  induction settled generalizing front with
  | nil =>
    rw [(List.append_eq_nil_iff.mp whole).1]
    exact .nil
  | step token after uncommented uncut stands _ ih =>
    rcases List.append_eq_append_iff.mp whole with ⟨more, split, rest⟩ | ⟨more, rfl, rest⟩
    · -- The text ends in the token, and what follows it there is blank.
      cases front with
      | nil => exact .nil
      | cons first front =>
        have last : more = [] := by
          cases token with
          | literal quote part =>
            have read := (literal?_eq_some_iff quote stands.1 part part []).mpr
              ⟨stands.2, (List.append_nil part).symm⟩
            obtain ⟨inner, ends⟩ := literal_last quote part part [] read
            by_contra filled
            have closing : quote ∈ more := by
              rw [Token.text, ends, ← List.cons_append] at split
              have final := congrArg List.getLast? split
              rw [List.getLast?_concat, List.getLast?_append_of_ne_nil _ filled] at final
              exact List.mem_of_getLast? final.symm
            have unblank := unblank_of_isQuote quote stands.1
            rw [blank quote (by rw [rest]; exact List.mem_append_left _ closing)] at unblank
            cases unblank
          | lineComment part => simp [Token.kept, Token.text] at uncommented
          | blockComment part => simp [Token.kept, Token.text] at uncommented
          | char value =>
            have sizes := congrArg List.length split
            simp only [Token.text, List.length_append, List.length_cons, List.length_nil] at sizes
            exact List.length_eq_zero_iff.mp (by omega)
        rw [last, List.append_nil] at split
        have alone : token.Stands [] :=
          token.stands_of_head after [] uncommented (by simp) stands
        have whole := Settled.step token [] uncommented uncut alone .nil
        rwa [split, List.append_nil] at whole
    · have inner := ih more rest.symm
      refine .step token more uncommented uncut ?_ inner
      refine token.stands_of_head after more uncommented (fun mark _ head => ?_) stands
      rw [rest, List.head?_append, head]
      rfl

theorem trim (text : List Char) (settled : Settled text) : Settled (Text.trim text) := by
  have started : Settled (trimStart text) := by
    induction text with
    | nil => exact settled
    | cons char rest ih =>
      cases blank : isBlank char with
      | true =>
        rw [trimStart, List.dropWhile_cons_of_pos blank]
        exact ih (of_blank_cons char rest blank settled)
      | false =>
        rw [trimStart_cons char rest blank]
        exact settled
  have parts : (trimStart text).rdropWhile isBlank ++ (trimStart text).rtakeWhile isBlank =
      trimStart text := List.rdropWhile_append_rtakeWhile
  rw [← parts] at started
  exact of_blank_append _ _ (fun char member => List.mem_rtakeWhile_imp member) started

end Settled

structure Single (text : List Char) : Prop where
  settled : Settled text
  filled : text ≠ []
  trimmed : trim text = text

theorem single_of_split (script : String) (list : List String)
    (split : statements script = .ok list) : ∀ statement ∈ list, Single statement.toList := by
  obtain ⟨tokens, reading, rfl⟩ := exists_tokens script list split
  intro statement member
  obtain ⟨text, among, rfl⟩ := List.mem_map.mp member
  obtain ⟨trimmed, filled⟩ := List.mem_filter.mp among
  obtain ⟨piece, given, rfl⟩ := List.mem_map.mp trimmed
  have edges := trim_edges piece
  have again := trim_of_edges _ [] edges.1 edges.2 (by simp)
  rw [List.append_nil] at again
  rw [String.toList_ofList]
  exact ⟨(settled_cut _ _ _ reading piece given).trim, by simpa using filled, again⟩

theorem pieces_joined (first : List Char) (others : List (List Char))
    (single : ∀ text ∈ first :: others, Single text) :
    pieces ([';'].intercalate (first :: others)) = .ok ⟨first, others⟩ := by
  induction others generalizing first with
  | nil =>
    rw [List.intercalate_singleton]
    exact (single first List.mem_cons_self).settled.pieces_eq
  | cons next others ih =>
    obtain ⟨own, later⟩ := List.forall_mem_cons.mp single
    rw [List.intercalate_cons_cons, List.append_assoc, List.singleton_append,
      own.settled.pieces_semicolon, ih next later]
    rfl

theorem statements_joined (list : List String)
    (single : ∀ statement ∈ list, Single statement.toList) :
    statements (";".intercalate list) = .ok list := by
  have trimmed : (list.map String.toList).map Text.trim = list.map String.toList := by
    rw [List.map_map]
    exact List.map_congr_left fun statement member => (single statement member).trimmed
  have filled : (list.map String.toList).filter (fun piece => !piece.isEmpty) =
      list.map String.toList := by
    apply List.filter_eq_self.mpr
    intro piece member
    obtain ⟨statement, among, rfl⟩ := List.mem_map.mp member
    simpa using (single statement among).filled
  have joined : (";".intercalate list).toList = [';'].intercalate (list.map String.toList) :=
    String.toList_intercalate
  cases list with
  | nil =>
    have empty : pieces "".toList = .ok ⟨[], []⟩ := by rw [String.toList_empty, pieces]
    exact statements_of_pieces "" [[]] _ empty rfl
  | cons first others =>
    have cuts := pieces_joined first.toList (others.map String.toList) ?_
    · rw [← List.map_cons, ← joined] at cuts
      rw [statements_of_pieces _ ((first :: others).map String.toList) _ cuts rfl, trimmed, filled,
        List.map_map]
      simp
    · rw [← List.map_cons]
      exact List.forall_mem_map.mpr single

/-- What a script is split into stays when it is split again, statement by statement or joined. -/
theorem statements_resplit (script : String) (list : List String)
    (split : statements script = .ok list) :
    (∀ statement ∈ list, statements statement = .ok [statement]) ∧
      statements (";".intercalate list) = .ok list := by
  have single := single_of_split script list split
  refine ⟨fun statement member => ?_, statements_joined list single⟩
  have alone := statements_joined [statement] (by simpa using single statement member)
  rwa [String.intercalate_singleton] at alone

/-- Marks that only comments keep apart do not come together, and those in a literal stay. -/
theorem statements_resplit_marks_apart :
    statements "-/*;*/-x/--;\n*y;';--'" = .ok ["- -x/\n*y", "';--'"] ∧
      statements "- -x/\n*y" = .ok ["- -x/\n*y"] ∧
      statements "- -x/\n*y;';--'" = .ok ["- -x/\n*y", "';--'"] := by
  have split : statements "-/*;*/-x/--;\n*y;';--'" = .ok ["- -x/\n*y", "';--'"] := by cbv
  obtain ⟨each, joined⟩ := statements_resplit _ _ split
  exact ⟨split, each _ (by simp), joined⟩

end SqlCompose.Script
