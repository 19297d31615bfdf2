import SqlCompose.Proofs.CallAlignment
import SqlCompose.Proofs.Reading
import SqlCompose.Text.Cut

/-! A statement can be cut at its placeholders in one way. Rendered with numbers it has its pieces
as they were, numbered from one on, and no placeholder is left. -/
namespace SqlCompose

namespace Text

namespace Quoting

def pieces : Quoting → List Char → List Char × List (List Char)
  | _, [] => ([], [])
  | .plain, '?' :: rest => ([], (pieces .plain rest).1 :: (pieces .plain rest).2)
  | state, char :: rest =>
    (char :: (pieces (state.step char) rest).1, (pieces (state.step char) rest).2)

theorem pieces_mark (rest : List Char) :
    plain.pieces ('?' :: rest) = ([], (plain.pieces rest).1 :: (plain.pieces rest).2) := by
  rw [pieces]

theorem pieces_cons (state : Quoting) (char : Char) (rest : List Char)
    (unmarked : state = .plain → char ≠ '?') :
    state.pieces (char :: rest) =
      (char :: ((state.step char).pieces rest).1, ((state.step char).pieces rest).2) := by
  cases state with
  | plain =>
    rw [pieces]
    exact unmarked
  | inside quote => simp [pieces]
  | escaped quote => simp [pieces]

theorem placeholders_pieces (state : Quoting) (text : List Char) :
    state.placeholders text = (state.pieces text).2.length := by
  induction text generalizing state with
  | nil => cases state <;> rfl
  | cons char rest ih =>
    by_cases marked : state = .plain ∧ char = '?'
    · obtain ⟨rfl, rfl⟩ := marked
      rw [placeholders_cons, if_pos ⟨rfl, rfl⟩, pieces_mark, List.length_cons, Nat.add_comm]
      exact congrArg (· + 1) (ih .plain)
    · rw [placeholders_cons, if_neg marked, Nat.zero_add, ih,
        pieces_cons _ _ _ fun plain mark => marked ⟨plain, mark⟩]

theorem numbered_cons (state : Quoting) (count : Nat) (char : Char) (rest : List Char)
    (unmarked : state = .plain → char ≠ '?') :
    state.numbered count (char :: rest) = char :: (state.step char).numbered count rest := by
  cases state with
  | plain =>
    rw [numbered]
    exact unmarked
  | inside quote => simp [numbered]
  | escaped quote => simp [numbered]

theorem numbered_pieces (state : Quoting) (count : Nat) (text : List Char) :
    state.numbered count text =
      numberedFrom (count + 1) (state.pieces text).1 (state.pieces text).2 := by
  induction text generalizing state count with
  | nil => cases state <;> rfl
  | cons char rest ih =>
    by_cases marked : state = .plain ∧ char = '?'
    · obtain ⟨rfl, rfl⟩ := marked
      rw [numbered, ih, pieces_mark]
      simp [numberedFrom]
    · have unmarked : state = .plain → char ≠ '?' := fun plain mark => marked ⟨plain, mark⟩
      rw [numbered_cons _ _ _ _ unmarked, ih, pieces_cons _ _ _ unmarked]
      rfl

theorem numbered_append (state : Quoting) (count : Nat) (first second : List Char) :
    state.numbered count (first ++ second) =
      state.numbered count first ++
        (first.foldl step state).numbered (count + state.placeholders first) second := by
  induction first generalizing state count with
  | nil => cases state <;> rfl
  | cons char rest ih =>
    rw [placeholders_cons, List.foldl_cons]
    by_cases marked : state = .plain ∧ char = '?'
    · obtain ⟨rfl, rfl⟩ := marked
      rw [List.cons_append, numbered, numbered, ih, if_pos ⟨rfl, rfl⟩, ← Nat.add_assoc,
        List.cons_append, List.append_assoc]
      rfl
    · have unmarked : state = .plain → char ≠ '?' := fun plain mark => marked ⟨plain, mark⟩
      rw [List.cons_append, numbered_cons _ _ _ _ unmarked, numbered_cons _ _ _ _ unmarked, ih,
        if_neg marked, Nat.zero_add, List.cons_append]

theorem step_of_within (state next : Quoting) (char : Char)
    (stepped : state.within char = some next) : state.step char = next ∧ next ≠ .plain := by
  unfold within at stepped
  split at stepped
  · cases stepped
  · rename_i live
    cases stepped
    exact ⟨rfl, live⟩

theorem pieces_of_read (state : Quoting) (text part left : List Char) (inside : state ≠ .plain)
    (read : readUntil within state text = some (part, left)) :
    state.pieces text = (part ++ (plain.pieces left).1, (plain.pieces left).2) := by
  induction text generalizing state part with
  | nil => cases read
  | cons char rest ih =>
    rw [pieces_cons state char rest fun plain => absurd plain inside]
    rw [readUntil_cons_eq_some_iff] at read
    rcases read with ⟨stopped, rfl, rfl⟩ | ⟨next, inner, stepped, read, rfl⟩
    · have closed : state.step char = .plain := by
        unfold within at stopped
        split at stopped
        · assumption
        · cases stopped
      rw [closed]
      rfl
    · obtain ⟨stays, live⟩ := step_of_within state next char stepped
      rw [stays, ih next inner live read]
      rfl

theorem pieces_of_unread (state : Quoting) (text : List Char) (inside : state ≠ .plain)
    (unread : readUntil within state text = none) : state.pieces text = (text, []) := by
  induction text generalizing state with
  | nil => cases state <;> rfl
  | cons char rest ih =>
    rw [pieces_cons state char rest fun plain => absurd plain inside]
    rw [readUntil] at unread
    cases stepped : state.within char with
    | none =>
      rw [stepped] at unread
      cases unread
    | some next =>
      rw [stepped] at unread
      obtain ⟨stays, live⟩ := step_of_within state next char stepped
      rw [stays, ih next live (by simpa using unread)]

end Quoting

theorem Unmarked.append (first second : List Char) (unmarked : Unmarked first)
    (also : Unmarked second) : Unmarked (first ++ second) := by
  induction unmarked with
  | nil => exact also
  | literal quote part rest quoted ends _ ih =>
    rw [List.cons_append, List.append_assoc]
    exact .literal quote part _ quoted ends ih
  | plain char rest unquoted other _ ih => exact .plain char _ unquoted other ih

theorem Unmarked.of_forall (text : List Char)
    (each : ∀ char ∈ text, isQuote char = false ∧ char ≠ '?') : Unmarked text := by
  induction text with
  | nil => exact .nil
  | cons char rest ih =>
    obtain ⟨⟨unquoted, other⟩, others⟩ := List.forall_mem_cons.mp each
    exact .plain char rest unquoted other (ih others)

theorem Unmarked.number (number : Nat) : Unmarked ('$' :: Nat.toDigits 10 number) := by
  refine .plain '$' _ (by decide) (by decide) (.of_forall _ fun char member => ?_)
  have digit := Nat.isDigit_of_mem_toDigits (by decide) (by decide) member
  refine ⟨isQuote_of_isDigit char digit, ?_⟩
  rintro rfl
  exact absurd digit (by decide)

theorem Unmarked.pieces (piece rest : List Char) (unmarked : Unmarked piece) :
    Quoting.plain.pieces (piece ++ rest) =
      (piece ++ (Quoting.plain.pieces rest).1, (Quoting.plain.pieces rest).2) := by
  induction unmarked with
  | nil => rfl
  | literal quote part after quoted ends _ ih =>
    have other : quote ≠ '?' := by
      rintro rfl
      exact absurd quoted (by decide)
    have opened : Quoting.plain.step quote = .inside quote := by simp [Quoting.step, quoted]
    have read := (literal?_eq_some_iff quote quoted (part ++ (after ++ rest)) part _).mpr
      ⟨ends, rfl⟩
    rw [List.cons_append, List.append_assoc, Quoting.pieces_cons _ _ _ fun _ => other, opened,
      Quoting.pieces_of_read _ _ _ _ (by simp) read, ih, List.cons_append, List.append_assoc]
  | plain char after unquoted other _ ih =>
    have stays : Quoting.plain.step char = .plain := by simp [Quoting.step, unquoted]
    rw [List.cons_append, Quoting.pieces_cons _ _ _ fun _ => other, stays, ih]
    rfl

theorem LeftOpen.pieces (rest : List Char) (left_open : LeftOpen rest) :
    Quoting.plain.pieces rest = (rest, []) := by
  cases left_open with
  | nil => rfl
  | literal quote rest quoted unended =>
    have other : quote ≠ '?' := by
      rintro rfl
      exact absurd quoted (by decide)
    have opened : Quoting.plain.step quote = .inside quote := by simp [Quoting.step, quoted]
    have unread : literal? quote rest = none := by
      by_contra found
      obtain ⟨⟨part, left⟩, read⟩ := Option.ne_none_iff_exists'.mp found
      obtain ⟨ends, split⟩ := (literal?_eq_some_iff quote quoted rest part left).mp read
      exact unended part ends ⟨left, split.symm⟩
    rw [Quoting.pieces_cons _ _ _ fun _ => other, opened,
      Quoting.pieces_of_unread _ _ (by simp) unread]

theorem Unmarked.of_read (quote : Char) (rest part left : List Char) (quoted : isQuote quote = true)
    (read : literal? quote rest = some (part, left)) : Unmarked (quote :: part) := by
  have ends := ((literal?_eq_some_iff quote quoted rest part left).mp read).1
  have literal := Unmarked.literal quote part [] quoted ends .nil
  rwa [List.append_nil] at literal

theorem LeftOpen.of_unread (quote : Char) (rest : List Char) (quoted : isQuote quote = true)
    (unread : literal? quote rest = none) : LeftOpen (quote :: rest) := by
  refine .literal quote rest quoted ?_
  rintro part ends ⟨left, split⟩
  rw [(literal?_eq_some_iff quote quoted rest part left).mpr ⟨ends, split.symm⟩] at unread
  cases unread

theorem Unmarked.numbered (piece rest : List Char) (count : Nat) (unmarked : Unmarked piece) :
    Quoting.plain.numbered count (piece ++ rest) = piece ++ Quoting.plain.numbered count rest := by
  rw [Quoting.numbered_pieces, Quoting.numbered_pieces, unmarked.pieces, numberedFrom,
    numberedFrom, List.append_assoc]

theorem LeftOpen.numbered (rest : List Char) (count : Nat) (left_open : LeftOpen rest) :
    Quoting.plain.numbered count rest = rest := by
  rw [Quoting.numbered_pieces, left_open.pieces]
  simp [numberedFrom]

namespace Cut

theorem eq_pieces (text : List Char) (pieces : List (List Char)) (cut : Cut text pieces) :
    pieces = (Quoting.plain.pieces text).1 :: (Quoting.plain.pieces text).2 := by
  induction cut with
  | last piece rest unmarked left_open => rw [unmarked.pieces, left_open.pieces]
  | mark piece rest pieces unmarked _ ih =>
    rw [unmarked.pieces, Quoting.pieces_mark, List.append_nil, ← ih]

theorem behind (front text first : List Char) (others : List (List Char))
    (unmarked : Unmarked front) (cut : Cut text (first :: others)) :
    Cut (front ++ text) ((front ++ first) :: others) := by
  cases cut with
  | last piece rest also left_open =>
    rw [← List.append_assoc]
    exact .last _ _ (unmarked.append _ _ also) left_open
  | mark piece rest pieces also cut =>
    rw [← List.append_assoc]
    exact .mark _ _ _ (unmarked.append _ _ also) cut

theorem exists_pieces (text : List Char) : ∃ first others, Cut text (first :: others) := by
  induction length : text.length using Nat.strongRecOn generalizing text with
  | ind length ih =>
    subst length
    cases text with
    | nil => exact ⟨[], [], .last [] [] .nil .nil⟩
    | cons char rest =>
      cases quoted : isQuote char with
      | true =>
        cases read : literal? char rest with
        | none =>
          exact ⟨char :: rest, [], .last [] _ .nil (.of_unread char rest quoted read)⟩
        | some found =>
          obtain ⟨part, left⟩ := found
          have literal := Unmarked.of_read char rest part left quoted read
          obtain ⟨rfl, _⟩ := readUntil_append _ _ _ _ _ read
          have shorter : left.length < (char :: (part ++ left)).length := by
            simp only [List.length_cons, List.length_append]
            omega
          obtain ⟨first, others, cut⟩ := ih left.length shorter left rfl
          exact ⟨_, _, cut.behind (char :: part) left first others literal⟩
      | false =>
        obtain ⟨first, others, cut⟩ := ih rest.length (by simp) rest rfl
        by_cases mark : char = '?'
        · subst mark
          exact ⟨[], first :: others, .mark [] rest _ .nil cut⟩
        · exact ⟨_, _, cut.behind [char] rest first others (.plain char [] quoted mark .nil)⟩

theorem intercalate (text : List Char) (pieces : List (List Char)) (cut : Cut text pieces) :
    text = ['?'].intercalate pieces := by
  induction cut with
  | last piece rest => simp
  | mark piece rest pieces _ cut ih =>
    cases pieces with
    | nil => cases cut
    | cons first others => rw [ih, List.intercalate_cons_cons, List.append_cons]

theorem numbered (text first : List Char) (others : List (List Char)) (number : Nat)
    (cut : Cut text (first :: others)) :
    Cut (numberedFrom number first others) [numberedFrom number first others] := by
  induction others generalizing text first number with
  | nil =>
    cases cut with
    | last piece rest unmarked left_open =>
      rw [numberedFrom, List.zipIdx_nil, List.flatMap_nil, List.append_nil]
      exact .last piece rest unmarked left_open
    | mark piece rest pieces unmarked cut => cases cut
  | cons second others ih =>
    cases cut with
    | mark piece rest pieces unmarked cut =>
      have grown : numberedFrom number first (second :: others) =
          (first ++ '$' :: Nat.toDigits 10 number) ++ numberedFrom (number + 1) second others := by
        simp [numberedFrom]
      rw [grown]
      exact (ih rest second (number + 1) cut).behind _ _ _ _
        (unmarked.append _ _ (.number number))

end Cut

end Text

namespace Statement

theorem validate_eq_ok_iff (statement : Statement) :
    statement.validate = .ok () ↔ statement.placeholderCount = statement.params.length := by
  unfold validate checkParameterCount
  split
  · simp_all
  · split <;> simp_all

theorem unmarked_of_cut (sql : String) (params : List Value)
    (cut : Text.Cut sql.toList [sql.toList]) :
    (Statement.mk sql params).placeholderCount = 0 ∧
      (Statement.mk sql params).render .dollar = sql := by
  obtain ⟨first, others⟩ := List.cons.inj cut.eq_pieces
  constructor
  · rw [placeholderCount, Text.Quoting.placeholders_pieces, ← others]
    rfl
  · rw [render, Text.Quoting.numbered_pieces, ← first, ← others]
    simp [Text.numberedFrom]

/-- A statement has one cut at its placeholders. Rendered with numbers it has the same pieces, with
the numbers from one on between them, and it stays as it is when it is rendered again. If the
statement is valid, every parameter has its number once. -/
theorem render_dollar_pieces (statement : Statement) :
    ∃ first others,
      Text.Cut statement.sql.toList (first :: others) ∧
      (∀ pieces, Text.Cut statement.sql.toList pieces → pieces = first :: others) ∧
      statement.sql.toList = ['?'].intercalate (first :: others) ∧
      others.length = statement.placeholderCount ∧
      (statement.render .dollar).toList = Text.numberedFrom 1 first others ∧
      (∀ params, (Statement.mk (statement.render .dollar) params).placeholderCount = 0 ∧
        (Statement.mk (statement.render .dollar) params).render .dollar =
          statement.render .dollar) ∧
      (statement.validate = .ok () ↔ statement.placeholderCount = statement.params.length) ∧
      (statement.validate = .ok () →
        (others.zipIdx 1).map Prod.snd = List.range' 1 statement.params.length) := by
  obtain ⟨first, others, cut⟩ := Text.Cut.exists_pieces statement.sql.toList
  obtain ⟨first_piece, other_pieces⟩ := List.cons.inj cut.eq_pieces
  have counted : others.length = statement.placeholderCount := by
    rw [placeholderCount, Text.Quoting.placeholders_pieces, other_pieces]
  have rendered : (statement.render .dollar).toList = Text.numberedFrom 1 first others := by
    rw [render, String.toList_ofList, Text.Quoting.numbered_pieces, first_piece, other_pieces]
  refine ⟨first, others, cut, fun pieces again => ?_, cut.intercalate, counted, rendered,
    fun params => ?_, statement.validate_eq_ok_iff, fun valid => ?_⟩
  · rw [again.eq_pieces, cut.eq_pieces]
  · apply unmarked_of_cut
    rw [rendered]
    exact cut.numbered _ _ _ 1
  · rw [List.zipIdx_map_snd, counted, statement.validate_eq_ok_iff.mp valid]

/-- Marks in a literal, behind an escaped quote and in an open literal keep their places. -/
theorem render_dollar_pieces_quoted :
    Statement.validate ⟨"a = ? AND b = '?\x5c'?' AND c = ? OR d = \x22?", [.null, .null]⟩ = .ok () ∧
    Statement.render ⟨"a = ? AND b = '?\x5c'?' AND c = ? OR d = \x22?", [.null, .null]⟩ .dollar =
      "a = $1 AND b = '?\x5c'?' AND c = $2 OR d = \x22?" ∧
    ∃ first others, (others.zipIdx 1).map Prod.snd = [1, 2] ∧
      Text.Cut (String.toList "a = ? AND b = '?\x5c'?' AND c = ? OR d = \x22?")
        (first :: others) := by
  have valid : Statement.validate
      ⟨"a = ? AND b = '?\x5c'?' AND c = ? OR d = \x22?", [.null, .null]⟩ = .ok () := rfl
  obtain ⟨first, others, cut, _, _, _, _, _, _, numbers⟩ := render_dollar_pieces
    ⟨"a = ? AND b = '?\x5c'?' AND c = ? OR d = \x22?", [.null, .null]⟩
  exact ⟨valid, rfl, first, others, numbers valid, cut⟩

end Statement

end SqlCompose
