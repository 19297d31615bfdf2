import Mathlib.Data.List.TakeWhile
import SqlCompose.Proofs.Reading
import SqlCompose.Script
import SqlCompose.Script.Token

/-! Every script is read in one way, and what is cut at its semicolons follows from its tokens. -/
namespace SqlCompose.Script

open Text

theorem mark_prefix_iff (first second char : Char) (rest : List Char) :
    [first, second] <+: char :: rest ↔ char = first ∧ rest.head? = some second := by
  rw [List.cons_prefix_cons]
  refine and_congr eq_comm ?_
  cases rest with
  | nil => simp
  | cons next rest => simp [List.cons_prefix_cons, eq_comm]

theorem mark_infix_iff (first second char : Char) (rest : List Char) :
    [first, second] <:+: char :: rest ↔
      char = first ∧ rest.head? = some second ∨ [first, second] <:+: rest := by
  rw [List.infix_cons_iff, mark_prefix_iff]

theorem afterComment?_cons (char : Char) (rest : List Char)
    (unended : ¬ (char = '*' ∧ rest.head? = some '/')) :
    afterComment? (char :: rest) = afterComment? rest := by
  rw [afterComment?]
  rintro left rfl rfl
  exact unended ⟨rfl, rfl⟩

theorem afterComment?_eq_some_iff (text left : List Char) :
    afterComment? text = some left ↔
      ∃ part, text = part ++ '*' :: '/' :: left ∧ ¬ ['*', '/'] <:+: part ++ ['*'] := by
  have head (part : List Char) (more : List Char) :
      (part ++ '*' :: more).head? = (part ++ ['*']).head? := by
    cases part <;> rfl
  induction text with
  | nil => simp [afterComment?]
  | cons char rest ih =>
    by_cases ended : char = '*' ∧ rest.head? = some '/'
    · obtain ⟨rfl, next⟩ := ended
      obtain ⟨rest, rfl⟩ := List.head?_eq_some_iff.mp next
      rw [afterComment?, Option.some.injEq]
      constructor
      · rintro rfl
        exact ⟨[], rfl, by decide⟩
      · rintro ⟨part, split, clean⟩
        cases part with
        | nil => simpa using split
        | cons char part =>
          rw [List.cons_append, List.cons.injEq] at split
          obtain ⟨rfl, split⟩ := split
          rw [List.cons_append, mark_infix_iff, ← head part ('/' :: left), ← split] at clean
          exact absurd (.inl ⟨rfl, rfl⟩) clean
    · rw [afterComment?_cons char rest ended]
      refine ih.trans ⟨?_, ?_⟩
      · rintro ⟨part, rfl, clean⟩
        refine ⟨char :: part, rfl, ?_⟩
        rw [List.cons_append, mark_infix_iff, ← head part ('/' :: left), not_or]
        exact ⟨ended, clean⟩
      · rintro ⟨part, split, clean⟩
        cases part with
        | nil =>
          cases split
          exact absurd ⟨rfl, rfl⟩ ended
        | cons first part =>
          cases split
          rw [List.cons_append, mark_infix_iff, not_or] at clean
          exact ⟨part, rfl, clean.2⟩

theorem afterComment?_eq_none_iff (text : List Char) :
    afterComment? text = none ↔ ¬ ['*', '/'] <:+: text := by
  induction text with
  | nil => simp [afterComment?]
  | cons char rest ih =>
    by_cases ended : char = '*' ∧ rest.head? = some '/'
    · have closing : ['*', '/'] <:+: char :: rest := (mark_infix_iff _ _ _ _).mpr (.inl ended)
      obtain ⟨rfl, next⟩ := ended
      obtain ⟨rest, rfl⟩ := List.head?_eq_some_iff.mp next
      exact iff_of_false (by simp [afterComment?]) (not_not_intro closing)
    · rw [afterComment?_cons char rest ended, ih, mark_infix_iff, not_or]
      exact (and_iff_right ended).symm

def token? : List Char → Option (Token × List Char)
  | [] => none
  | char :: rest =>
    if isQuote char then
      (literal? char rest).map fun (part, left) => (.literal char part, left)
    else if char = '-' ∧ rest.head? = some '-' then
      some (.lineComment (rest.tail.takeWhile (· ≠ '\n')), beforeNewline rest.tail)
    else if char = '/' ∧ rest.head? = some '*' then
      (afterComment? rest.tail).map fun left =>
        (.blockComment (rest.tail.take (rest.tail.length - left.length - 2)), left)
    else some (.char char, rest)

theorem lineComment_iff (text part left : List Char) :
    part = text.takeWhile (· ≠ '\n') ∧ left = beforeNewline text ↔
      ('\n' ∉ part ∧ ∀ next ∈ left.head?, next = '\n') ∧ text = part ++ left := by
  constructor
  · rintro ⟨rfl, rfl⟩
    refine ⟨⟨fun member => ?_, fun next member => ?_⟩, List.takeWhile_append_dropWhile.symm⟩
    · simpa using List.mem_takeWhile_imp member
    · have stopped := List.head?_dropWhile_not (· ≠ '\n') text
      rw [beforeNewline, Option.mem_def] at member
      rw [member] at stopped
      simpa using stopped
  · rintro ⟨⟨clean, ends⟩, rfl⟩
    have inside : ∀ char ∈ part, decide (char ≠ '\n') = true := by
      intro char member
      rw [decide_eq_true_eq]
      rintro rfl
      exact clean member
    rw [beforeNewline, List.takeWhile_append_of_pos inside, List.dropWhile_append_of_pos inside]
    cases left with
    | nil => simp
    | cons next left =>
      have newline : next = '\n' := ends next rfl
      simp [newline]

theorem blockComment_iff (text part left : List Char) :
    afterComment? text = some left ∧ part = text.take (text.length - left.length - 2) ↔
      ¬ ['*', '/'] <:+: part ++ ['*'] ∧ text = part ++ '*' :: '/' :: left := by
  rw [afterComment?_eq_some_iff]
  constructor
  · rintro ⟨⟨inner, rfl, clean⟩, rfl⟩
    have long : (inner ++ '*' :: '/' :: left).length - left.length - 2 = inner.length := by
      simp only [List.length_append, List.length_cons]
      omega
    rw [long, List.take_left]
    exact ⟨clean, rfl⟩
  · rintro ⟨clean, rfl⟩
    refine ⟨⟨part, rfl, clean⟩, ?_⟩
    have long : (part ++ '*' :: '/' :: left).length - left.length - 2 = part.length := by
      simp only [List.length_append, List.length_cons]
      omega
    rw [long, List.take_left]

theorem token?_sound (text : List Char) (token : Token) (left : List Char)
    (read : token? text = some (token, left)) :
    token.Stands left ∧ text = token.text ++ left := by
  cases text with
  | nil => cases read
  | cons char rest =>
    rw [token?] at read
    split at read
    · rename_i quoted
      obtain ⟨⟨part, behind⟩, inside, same⟩ := Option.map_eq_some_iff.mp read
      cases same
      obtain ⟨ends, rfl⟩ := (literal?_eq_some_iff char quoted rest part left).mp inside
      exact ⟨⟨quoted, ends⟩, rfl⟩
    · rename_i unquoted
      split at read
      · rename_i opening
        obtain ⟨rfl, next⟩ := opening
        obtain ⟨rest, rfl⟩ := List.head?_eq_some_iff.mp next
        cases read
        obtain ⟨ends, split⟩ := (lineComment_iff rest _ _).mp ⟨rfl, rfl⟩
        exact ⟨ends, congrArg ('-' :: '-' :: ·) split⟩
      · rename_i unlined
        split at read
        · rename_i opening
          obtain ⟨rfl, next⟩ := opening
          obtain ⟨rest, rfl⟩ := List.head?_eq_some_iff.mp next
          obtain ⟨behind, found, same⟩ := Option.map_eq_some_iff.mp read
          cases same
          obtain ⟨clean, split⟩ := (blockComment_iff rest _ left).mp ⟨found, rfl⟩
          refine ⟨clean, ?_⟩
          simpa [Token.text] using split
        · rename_i unblocked
          cases read
          refine ⟨⟨by simpa using unquoted, ?_, ?_⟩, rfl⟩
          · rwa [mark_prefix_iff]
          · rwa [mark_prefix_iff]

theorem token?_complete (token : Token) (left : List Char) (stands : token.Stands left) :
    token? (token.text ++ left) = some (token, left) := by
  cases token with
  | literal quote part =>
    obtain ⟨quoted, ends⟩ := stands
    have inside := (literal?_eq_some_iff quote quoted (part ++ left) part left).mpr ⟨ends, rfl⟩
    rw [Token.text, List.cons_append, token?, if_pos quoted, inside]
    rfl
  | lineComment part =>
    obtain ⟨inside, behind⟩ := (lineComment_iff (part ++ left) part left).mpr ⟨stands, rfl⟩
    simp only [Token.text, List.cons_append, token?, List.tail_cons, ← inside, ← behind]
    rfl
  | blockComment part =>
    obtain ⟨found, inside⟩ := (blockComment_iff _ part left).mpr ⟨stands, rfl⟩
    simp only [Token.text, List.cons_append, List.append_assoc, List.nil_append, token?,
      List.tail_cons, found, Option.map_some, ← inside]
    rfl
  | char value =>
    obtain ⟨unquoted, unlined, unblocked⟩ := stands
    rw [mark_prefix_iff] at unlined unblocked
    rw [Token.text, List.singleton_append, token?, if_neg (by simp [unquoted]), if_neg unlined,
      if_neg unblocked]

/-- Where no token can be read, there is nothing, or something that is not closed. -/
theorem token?_eq_none_iff (text : List Char) :
    token? text = none ↔ text = [] ∨ ∃ fault, Unclosed fault text := by
  cases text with
  | nil => simp [token?]
  | cons char rest =>
    rw [token?]
    split
    · rename_i quoted
      rw [Option.map_eq_none_iff]
      constructor
      · intro unread
        refine .inr ⟨_, .literal char rest quoted fun part left ends split => ?_⟩
        rw [(literal?_eq_some_iff char quoted rest part left).mpr ⟨ends, split⟩] at unread
        cases unread
      · rintro (empty | ⟨fault, unclosed⟩)
        · cases empty
        · cases unclosed with
          | literal _ _ _ unended =>
            rw [Option.eq_none_iff_forall_ne_some]
            rintro ⟨part, left⟩ read
            obtain ⟨ends, split⟩ := (literal?_eq_some_iff char quoted rest part left).mp read
            exact unended part left ends split
          | comment _ _ => exact absurd quoted (by decide)
    · rename_i unquoted
      have literal (fault : Nat → ParseFault) (unclosed : Unclosed fault (char :: rest)) :
          ∃ behind, char = '/' ∧ rest = '*' :: behind ∧ ¬ ['*', '/'] <:+: behind := by
        cases unclosed with
        | literal _ _ quoted _ => exact absurd quoted unquoted
        | comment behind unended => exact ⟨behind, rfl, rfl, unended⟩
      split
      · rename_i opening
        refine iff_of_false (by simp) ?_
        rintro (empty | ⟨fault, unclosed⟩)
        · cases empty
        · obtain ⟨behind, rfl, _⟩ := literal fault unclosed
          exact absurd opening.1 (by decide)
      · split
        · rename_i opening
          obtain ⟨rfl, next⟩ := opening
          obtain ⟨behind, rfl⟩ := List.head?_eq_some_iff.mp next
          rw [Option.map_eq_none_iff, List.tail_cons, afterComment?_eq_none_iff]
          constructor
          · intro unended
            exact .inr ⟨_, .comment behind unended⟩
          · rintro (empty | ⟨fault, unclosed⟩)
            · cases empty
            · obtain ⟨_, _, same, unended⟩ := literal fault unclosed
              cases same
              exact unended
        · rename_i unblocked
          refine iff_of_false (by simp) ?_
          rintro (empty | ⟨fault, unclosed⟩)
          · cases empty
          · obtain ⟨behind, rfl, rfl, _⟩ := literal fault unclosed
            exact unblocked ⟨rfl, rfl⟩

theorem Token.text_ne_nil (token : Token) : token.text ≠ [] := by
  cases token <;> simp [text]

namespace Reading

variable {text rest : List Char} {tokens : List Token}

theorem first (reading : Reading text tokens rest) :
    token? text = none ∧ tokens = [] ∧ rest = text ∨
      ∃ token left later, token? text = some (token, left) ∧ tokens = token :: later ∧
        Reading left later rest := by
  cases reading with
  | stuck _ unread =>
    refine .inl ⟨?_, rfl, rfl⟩
    rw [Option.eq_none_iff_forall_ne_some]
    rintro ⟨token, left⟩ read
    obtain ⟨stands, split⟩ := token?_sound text token left read
    exact unread token left stands split
  | step token after later _ stands reading =>
    exact .inr ⟨token, after, later, token?_complete token after stands, rfl, reading⟩

theorem split (reading : Reading text tokens rest) : text = tokens.flatMap Token.text ++ rest := by
  induction reading with
  | stuck rest _ => rfl
  | step token after tokens rest _ _ ih => rw [ih, List.flatMap_cons, List.append_assoc]

theorem unique (reading : Reading text tokens rest) (others : List Token) (left : List Char)
    (again : Reading text others left) : others = tokens ∧ left = rest := by
  induction reading generalizing others left with
  | stuck rest unread =>
    obtain ⟨_, none, same⟩ | ⟨token, behind, later, read, _⟩ := again.first
    · exact ⟨none, same⟩
    · obtain ⟨stands, split⟩ := token?_sound _ token behind read
      exact absurd split (unread token behind stands)
  | step token after tokens rest stands _ ih =>
    have own := token?_complete token after stands
    obtain ⟨none, _⟩ | ⟨other, behind, later, read, rfl, rereading⟩ := again.first
    · rw [own] at none
      cases none
    · rw [own] at read
      cases read
      obtain ⟨rfl, rfl⟩ := ih later left rereading
      exact ⟨rfl, rfl⟩

end Reading

theorem exists_reading (text : List Char) : ∃ tokens rest, Reading text tokens rest ∧
    (rest = [] ∨ ∃ fault, Unclosed fault rest) := by
  induction length : text.length using Nat.strongRecOn generalizing text with
  | ind length ih =>
    subst length
    cases read : token? text with
    | none =>
      refine ⟨[], text, .stuck text fun token after stands split => ?_,
        (token?_eq_none_iff text).mp read⟩
      rw [split, token?_complete token after stands] at read
      cases read
    | some found =>
      obtain ⟨token, left⟩ := found
      obtain ⟨stands, rfl⟩ := token?_sound text token left read
      have filled := List.length_pos_iff.mpr token.text_ne_nil
      obtain ⟨tokens, rest, reading, ends⟩ :=
        ih left.length (by rw [List.length_append]; omega) left rfl
      exact ⟨token :: tokens, rest, .step token left tokens rest stands reading, ends⟩

theorem pieces_char (char : Char) (rest : List Char) (other : char ≠ ';')
    (stands : (Token.char char).Stands rest) :
    pieces (char :: rest) = (pieces rest).map (Pieces.behind [char]) := by
  obtain ⟨unquoted, unlined, unblocked⟩ := stands
  rw [mark_prefix_iff] at unlined unblocked
  rw [pieces, if_neg (by simp [unquoted])]
  · exact other
  · rintro left rfl rfl
    exact unlined ⟨rfl, rfl⟩
  · rintro left rfl rfl
    exact unblocked ⟨rfl, rfl⟩

theorem pieces_quote (quote : Char) (rest : List Char) (quoted : isQuote quote = true) :
    pieces (quote :: rest) =
      match literal? quote rest with
      | none => .error (.unterminatedQuote, byteSize rest + 1)
      | some (part, left) => (pieces left).map (Pieces.behind (quote :: part)) := by
  rw [pieces, if_pos quoted]
  · split <;> rename_i read <;> simp only [read]
  · rintro rfl
    exact absurd quoted (by decide)
  · rintro left rfl
    exact absurd quoted (by decide)
  · rintro left rfl
    exact absurd quoted (by decide)

theorem pieces_comment (rest : List Char) :
    pieces ('/' :: '*' :: rest) =
      match afterComment? rest with
      | none => .error (.unterminatedComment, byteSize rest + 2)
      | some left => (pieces left).map (Pieces.behind [' ']) := by
  rw [pieces]
  split <;> rename_i found <;> simp only [found]

theorem behind_nil (found : Except ((Nat → ParseFault) × Nat) Pieces) :
    found.map (Pieces.behind []) = found := by
  cases found <;> rfl

theorem pieces_token (token : Token) (left : List Char) (stands : token.Stands left)
    (other : token ≠ .char ';') :
    pieces (token.text ++ left) = (pieces left).map (Pieces.behind token.kept) := by
  cases token with
  | literal quote part =>
    obtain ⟨quoted, ends⟩ := stands
    have read := (literal?_eq_some_iff quote quoted (part ++ left) part left).mpr ⟨ends, rfl⟩
    rw [Token.text, List.cons_append, pieces_quote quote _ quoted, read]
    rfl
  | lineComment part =>
    obtain ⟨_, behind⟩ := (lineComment_iff (part ++ left) part left).mpr ⟨stands, rfl⟩
    rw [Token.text, List.cons_append, List.cons_append, pieces, ← behind, Token.kept, behind_nil]
  | blockComment part =>
    obtain ⟨found, _⟩ := (blockComment_iff _ part left).mpr ⟨stands, rfl⟩
    simp only [Token.text, List.cons_append, List.append_assoc, List.nil_append, pieces_comment,
      found]
    rfl
  | char value =>
    exact pieces_char value left (fun same => other (congrArg Token.char same)) stands

theorem pieces_unclosed (fault : Nat → ParseFault) (text : List Char)
    (unclosed : Unclosed fault text) : pieces text = .error (fault, byteSize text) := by
  have unread := (token?_eq_none_iff text).mpr (.inr ⟨fault, unclosed⟩)
  cases unclosed with
  | literal quote rest quoted unended =>
    rw [token?, if_pos quoted, Option.map_eq_none_iff] at unread
    have narrow : quote.utf8Size = 1 := by
      rcases eq_of_isQuote quote quoted with rfl | rfl | rfl <;> rfl
    rw [pieces_quote quote rest quoted, unread, byteSize, narrow, Nat.add_comm]
  | comment rest unended =>
    have sizes : byteSize ('/' :: '*' :: rest) = byteSize rest + 2 := by
      have slash : ('/' : Char).utf8Size = 1 := rfl
      have star : ('*' : Char).utf8Size = 1 := rfl
      simp only [byteSize, slash, star]
      omega
    rw [pieces_comment, (afterComment?_eq_none_iff rest).mpr unended, sizes]

theorem cut_nil : cut [] = [[]] := rfl

theorem cut_semicolon (tokens : List Token) : cut (.char ';' :: tokens) = [] :: cut tokens := by
  simp [cut, List.splitOn, List.splitOnP_cons_eq_if_modifyHead]

theorem cut_cons (token : Token) (tokens : List Token) (other : token ≠ .char ';') :
    cut (token :: tokens) = (cut tokens).modifyHead (token.kept ++ ·) := by
  have parts (lists : List (List Token)) :
      (lists.modifyHead (token :: ·)).map (·.flatMap Token.kept) =
        (lists.map (·.flatMap Token.kept)).modifyHead (token.kept ++ ·) := by
    cases lists <;> rfl
  have apart : (token == Token.char ';') = false := by simpa using other
  rw [cut, List.splitOn, List.splitOnP_cons_eq_if_modifyHead, apart]
  exact parts _

/-- The pieces of a text that is read to its end are cut from its tokens; otherwise the place where
the reading stops is at fault. -/
theorem pieces_of_reading (text : List Char) (tokens : List Token) (rest : List Char)
    (reading : Reading text tokens rest) :
    (rest = [] → ∃ found, pieces text = .ok found ∧ found.first :: found.others = cut tokens) ∧
      ∀ fault, Unclosed fault rest → pieces text = .error (fault, byteSize rest) := by
  induction reading with
  | stuck rest unread =>
    refine ⟨?_, fun fault => pieces_unclosed fault rest⟩
    rintro rfl
    exact ⟨⟨[], []⟩, by rw [pieces], rfl⟩
  | step token after tokens rest stands _ ih =>
    by_cases semicolon : token = .char ';'
    · subst semicolon
      have stepped : pieces (Token.text (.char ';') ++ after) = (pieces after).map Pieces.cut := by
        rw [Token.text, List.singleton_append, pieces]
      refine ⟨fun ended => ?_, fun fault unclosed => ?_⟩
      · obtain ⟨found, cuts, same⟩ := ih.1 ended
        refine ⟨found.cut, by rw [stepped, cuts]; rfl, ?_⟩
        rw [cut_semicolon, ← same]
        rfl
      · rw [stepped, ih.2 fault unclosed]
        rfl
    · have stepped := pieces_token token after stands semicolon
      refine ⟨fun ended => ?_, fun fault unclosed => ?_⟩
      · obtain ⟨found, cuts, same⟩ := ih.1 ended
        refine ⟨found.behind token.kept, by rw [stepped, cuts]; rfl, ?_⟩
        rw [cut_cons token tokens semicolon, ← same]
        rfl
      · rw [stepped, ih.2 fault unclosed]
        rfl

theorem statements_of_pieces (script : String) (texts : List (List Char))
    (found : Pieces) (cuts : pieces script.toList = .ok found)
    (same : found.first :: found.others = texts) :
    statements script =
      .ok (((texts.map trim).filter fun piece => !piece.isEmpty).map String.ofList) := by
  simp only [statements, cuts, same]

theorem exists_tokens (script : String) (list : List String)
    (split : statements script = .ok list) :
    ∃ tokens, Reading script.toList tokens [] ∧
      list = (((cut tokens).map trim).filter fun piece => !piece.isEmpty).map String.ofList := by
  obtain ⟨tokens, rest, reading, ends⟩ := exists_reading script.toList
  obtain ⟨whole, broken⟩ := pieces_of_reading _ _ _ reading
  rcases ends with rfl | ⟨fault, unclosed⟩
  · obtain ⟨found, cuts, same⟩ := whole rfl
    rw [statements_of_pieces script _ found cuts same, Except.ok.injEq] at split
    exact ⟨tokens, reading, split.symm⟩
  · simp [statements, broken fault unclosed] at split

end SqlCompose.Script
