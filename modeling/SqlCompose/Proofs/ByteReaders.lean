import Mathlib.Data.List.Permutation
import SqlCompose.Proofs.ByteTokens
import SqlCompose.Proofs.Marks
import SqlCompose.Proofs.Reparsing

/-! All readers of SQL texts go over the bytes without a slip, and come to what is read of the
texts. -/
namespace SqlCompose

open Text

namespace Bytewise

theorem find?_newline (text : List Char) :
    (find? ['\n'] text).getD (byteSize text) = byteSize (text.takeWhile (· ≠ '\n')) := by
  induction text with
  | nil => rfl
  | cons char rest ih =>
    by_cases newline : char = '\n'
    · subst newline
      rfl
    · have apart : List.isPrefixOf ['\n'] (char :: rest) = false := by
        rw [← Bool.not_eq_true, List.isPrefixOf_iff_prefix]
        exact fun inside => newline (List.cons_prefix_cons.mp inside).1.symm
      rw [find?, apart, if_neg (by simp), List.takeWhile_cons_of_pos (by simpa using newline),
        byteSize, byteSize, ← ih]
      cases find? ['\n'] rest <;> rfl

theorem find?_cons (first second char : Char) (rest : List Char) :
    find? [first, second] (char :: rest) =
      if char = first ∧ rest.head? = some second then some 0
      else (find? [first, second] rest).map (char.utf8Size + ·) := by
  rw [find?]
  refine if_congr ?_ rfl rfl
  rw [List.isPrefixOf_iff_prefix, Script.mark_prefix_iff]

theorem find?_comment_none (text : List Char) (unended : Script.afterComment? text = none) :
    find? ['*', '/'] text = none := by
  induction text with
  | nil => rfl
  | cons char rest ih =>
    by_cases ended : char = '*' ∧ rest.head? = some '/'
    · obtain ⟨rfl, next⟩ := ended
      obtain ⟨rest, rfl⟩ := List.head?_eq_some_iff.mp next
      rw [Script.afterComment?] at unended
      cases unended
    · rw [Script.afterComment?_cons char rest ended] at unended
      rw [find?_cons, if_neg ended, ih unended]
      rfl

theorem find?_comment_some (text left : List Char)
    (ended : Script.afterComment? text = some left) :
    ∃ part, text = part ++ '*' :: '/' :: left ∧ find? ['*', '/'] text = some (byteSize part) := by
  induction text with
  | nil => cases ended
  | cons char rest ih =>
    by_cases here : char = '*' ∧ rest.head? = some '/'
    · obtain ⟨rfl, next⟩ := here
      obtain ⟨rest, rfl⟩ := List.head?_eq_some_iff.mp next
      rw [Script.afterComment?] at ended
      cases ended
      exact ⟨[], rfl, by rw [find?_cons, if_pos ⟨rfl, rfl⟩]; rfl⟩
    · rw [Script.afterComment?_cons char rest here] at ended
      obtain ⟨part, rfl, found⟩ := ih ended
      exact ⟨char :: part, rfl, by rw [find?_cons, if_neg here, found]; rfl⟩

theorem lineStop_eq (front rest : List Char) :
    lineStop (front ++ rest) (byteSize front) =
      .ok (byteSize (front ++ rest.takeWhile (· ≠ '\n'))) := by
  have stop := find?_newline rest
  rw [lineStop, textFrom_append, byteSize_append front rest, byteSize_append front, ← stop]
  simp only [bind, Except.bind]
  cases find? ['\n'] rest <;> rfl

theorem blockStop_eq (front rest : List Char) :
    blockStop (front ++ '/' :: '*' :: rest) (byteSize front) =
      .ok ((find? ['*', '/'] rest).map fun offset =>
        byteSize (front ++ ['/', '*']) + offset + 2) := by
  have size : byteSize (front ++ ['/', '*']) = byteSize front + 2 := byteSize_append front _
  have cut := textFrom_append (front ++ ['/', '*']) rest
  rw [size, List.append_assoc] at cut
  rw [blockStop, size]
  simp only [bind, Except.bind, List.cons_append, List.nil_append] at cut ⊢
  rw [cut]
  rfl

def split (script : String) (found : List String) (held : List Char)
    (read : Except ((Nat → ParseFault) × Nat) Script.Pieces) : Except Error (List String) :=
  match read with
  | .ok pieces => .ok (found ++
      ((((held ++ pieces.first) :: pieces.others).map trim).filter fun piece =>
        !piece.isEmpty).map String.ofList)
  | .error (fault, behind) =>
    .error (.parse (fault (byteSize script.toList - behind)) [] script)

theorem split_behind (script : String) (found : List String) (held text : List Char)
    (read : Except ((Nat → ParseFault) × Nat) Script.Pieces) :
    split script found held (read.map (Script.Pieces.behind text)) =
      split script found (held ++ text) read := by
  cases read with
  | error fault => rfl
  | ok pieces => simp [split, Except.map, Script.Pieces.behind]

theorem split_cut (script : String) (found : List String) (held : List Char)
    (read : Except ((Nat → ParseFault) × Nat) Script.Pieces) :
    split script found held (read.map Script.Pieces.cut) =
      split script (push found held) [] read := by
  cases read with
  | error fault => rfl
  | ok pieces =>
    cases blank : (trim held).isEmpty <;>
      simp [split, Except.map, Script.Pieces.cut, push, blank, List.filter_cons]

theorem split_start (script : String) :
    split script [] [] (Script.pieces script.toList) = Script.statements script := by
  rw [Script.statements]
  cases Script.pieces script.toList with
  | error fault => rfl
  | ok pieces => rfl

/-- What the reader of scripts has passed over and what is ahead of it make up its result. -/
def Splitting.Follows (script : String) (place : Nat) (state : Splitting) : Prop :=
  ∃ before pending rest more, At script.toList place (before ++ pending) rest more ∧
    state.start = byteSize before ∧
    split script state.found (state.current ++ pending) (Script.pieces rest) =
      Script.statements script

theorem statementsTurn_eq (script : String) (state : Splitting) (before pending left : List Char)
    (char : Char) (whole : script.toList = before ++ pending ++ char :: left)
    (start : state.start = byteSize before) (narrow : isWide char = false) :
    statementsTurn script (byteSize (before ++ pending)) state =
      if char = ';' then
        .ok (.on (byteSize (before ++ pending) + 1)
          ⟨push state.found (state.current ++ pending), [], byteSize (before ++ pending) + 1⟩)
      else if char = '-' ∧ left.head? = some '-' then
        (lineStop script.toList (byteSize (before ++ pending))).map fun stop =>
          .on stop ⟨state.found, state.current ++ pending, stop⟩
      else if char = '/' ∧ left.head? = some '*' then
        (blockStop script.toList (byteSize (before ++ pending))).map fun
          | none => .done (.error (.parse
              (.unterminatedComment (byteSize (before ++ pending))) [] script))
          | some stop => .on stop ⟨state.found, state.current ++ pending ++ [' '], stop⟩
      else if isQuote char then
        (skipLiteral script.toList (byteSize (before ++ pending))).map fun
          | none => .done (.error (.parse
              (.unterminatedQuote (byteSize (before ++ pending))) [] script))
          | some next => .on next state
      else .ok (.on (byteSize (before ++ pending) + 1) state) := by
  have ahead := drop_bytes (before ++ pending) (char :: left)
  rw [bytes_narrow_cons char left narrow, ← whole] at ahead
  obtain ⟨read, behind⟩ := byteAt_of_drop _ _ _ _ ahead
  have next : (bytes script.toList)[byteSize (before ++ pending) + 1]? = (bytes left).head? := by
    rw [← List.head?_drop, behind]
  have cut : slice script.toList state.start (byteSize (before ++ pending)) = .ok pending := by
    rw [whole, start, slice_append]
  rw [statementsTurn, read, next]
  simp only [bind, Except.bind, cut]
  refine if_congr Iff.rfl rfl
    (if_congr (and_congr_right fun _ => head?_bytes_iff '-' (by decide) left) ?_
      (if_congr (and_congr_right fun _ => head?_bytes_iff '*' (by decide) left) ?_
        (if_congr Iff.rfl ?_ rfl)))
  · exact bind_eq_map _ _ _ fun _ => rfl
  · exact bind_eq_map _ _ _ fun passed => by cases passed <;> rfl
  · exact bind_eq_map _ _ _ fun passed => by cases passed <;> rfl

theorem statementsTurn_wide (script : String) (place : Nat) (state : Splitting) (byte : Char)
    (read : byteAt script.toList place = .ok byte) (wide : isWide byte = true) :
    statementsTurn script place state = .ok (.on (place + 1) state) := by
  have unquoted := (plain_of_isWide byte wide).1
  have apart (char : Char) := ne_of_isWide byte char wide
  rw [statementsTurn, read]
  simp only [bind, Except.bind]
  rw [if_neg (apart ';' (by decide)), if_neg fun both => apart '-' (by decide) both.1,
    if_neg fun both => apart '/' (by decide) both.1, if_neg (by simp [unquoted])]
  rfl

theorem pieces_wide (text rest : List Char) (wide : ∀ char ∈ text, isWide char = true) :
    Script.pieces (text ++ rest) = (Script.pieces rest).map (Script.Pieces.behind text) := by
  induction text with
  | nil => exact (Script.behind_nil _).symm
  | cons char text ih =>
    obtain ⟨first, others⟩ := List.forall_mem_cons.mp wide
    have apart (other : Char) := ne_of_isWide char other first
    have stands : (Script.Token.char char).Stands (text ++ rest) := by
      refine ⟨(plain_of_isWide char first).1, ?_, ?_⟩
      · rw [Script.mark_prefix_iff]
        exact fun both => apart '-' (by decide) both.1
      · rw [Script.mark_prefix_iff]
        exact fun both => apart '/' (by decide) both.1
    rw [List.cons_append, Script.pieces_char char _ (apart ';' (by decide)) stands, ih others]
    cases Script.pieces rest <;> rfl

namespace Splitting

variable {script : String} {place : Nat} {state : Splitting}

theorem Follows.ended (beyond : byteSize script.toList ≤ place)
    (follows : state.Follows script place) :
    ∃ result, statementsEnd script place state = .ok result ∧
      result = Script.statements script := by
  obtain ⟨before, pending, rest, more, at_, start, outcome⟩ := follows
  obtain ⟨rfl, rfl⟩ := at_.ended beyond
  refine ⟨.ok (push state.found (state.current ++ pending)), ?_, ?_⟩
  · rw [statementsEnd, at_.split, List.append_nil, start, textFrom_append]
    rfl
  · rw [← outcome, Script.pieces, split, push]
    cases blank : (trim (state.current ++ pending)).isEmpty <;> simp [blank]

theorem Follows.taken (front rest : List Char) (found : List String) (current : List Char)
    (whole : script.toList = front ++ rest)
    (outcome : split script found current (Script.pieces rest) = Script.statements script) :
    Follows script (byteSize front) ⟨found, current, byteSize front⟩ := by
  refine ⟨front, [], rest, [], ?_, rfl, ?_⟩
  · rw [whole, List.append_nil]
    exact .between front rest
  · rwa [List.append_nil]

theorem Follows.on (before pending moved left later : List Char) (next : Nat)
    (start : state.start = byteSize before)
    (at_ : At script.toList next (before ++ pending ++ moved) left later)
    (outcome : split script state.found (state.current ++ pending)
      ((Script.pieces left).map (Script.Pieces.behind moved)) = Script.statements script) :
    state.Follows script next := by
  rw [split_behind, List.append_assoc] at outcome
  rw [List.append_assoc] at at_
  exact ⟨before, pending ++ moved, left, later, at_, start, outcome⟩

theorem Follows.semicolon (before pending left : List Char)
    (whole : script.toList = before ++ pending ++ ';' :: left)
    (outcome : split script state.found (state.current ++ pending)
      (Script.pieces (';' :: left)) = Script.statements script) :
    Follows script (byteSize (before ++ pending) + 1)
      ⟨push state.found (state.current ++ pending), [], byteSize (before ++ pending) + 1⟩ := by
  have single : byteSize (before ++ pending ++ [';']) = byteSize (before ++ pending) + 1 :=
    byteSize_behind _ ';' [] (by decide)
  rw [Script.pieces, split_cut] at outcome
  rw [List.append_cons] at whole
  rw [← single]
  exact .taken _ left _ [] whole outcome

theorem Follows.line (before pending rest : List Char)
    (whole : script.toList = before ++ pending ++ '-' :: '-' :: rest)
    (outcome : split script state.found (state.current ++ pending)
      (Script.pieces ('-' :: '-' :: rest)) = Script.statements script) :
    Leads (Follows script) (· = Script.statements script) (byteSize (before ++ pending))
      ((lineStop script.toList (byteSize (before ++ pending))).map fun stop =>
        .on stop ⟨state.found, state.current ++ pending, stop⟩) := by
  rw [Script.pieces] at outcome
  rw [whole, lineStop_eq]
  refine .on _ _ (byteSize_lt_behind _ _ _) (.taken _ (Script.beforeNewline rest) _ _ ?_ outcome)
  have parts : ('-' :: '-' :: rest).takeWhile (· ≠ '\n') ++ Script.beforeNewline rest =
      '-' :: '-' :: rest := List.takeWhile_append_dropWhile
  rw [whole, List.append_assoc (before ++ pending), parts]

theorem Follows.block (before pending rest : List Char)
    (whole : script.toList = before ++ pending ++ '/' :: '*' :: rest)
    (outcome : split script state.found (state.current ++ pending)
      (Script.pieces ('/' :: '*' :: rest)) = Script.statements script) :
    Leads (Follows script) (· = Script.statements script) (byteSize (before ++ pending))
      ((blockStop script.toList (byteSize (before ++ pending))).map fun
        | none => .done (.error (.parse
            (.unterminatedComment (byteSize (before ++ pending))) [] script))
        | some stop => .on stop ⟨state.found, state.current ++ pending ++ [' '], stop⟩) := by
  have place : byteSize script.toList - (byteSize rest + 1 + 1) = byteSize (before ++ pending) := by
    rw [whole, byteSize_append, byteSize_narrow_cons '/' _ (by decide),
      byteSize_narrow_cons '*' rest (by decide), Nat.add_sub_cancel_right]
  rw [Script.pieces_comment] at outcome
  rw [whole, blockStop_eq]
  cases ended : Script.afterComment? rest with
  | none =>
    rw [ended] at outcome
    rw [find?_comment_none rest ended]
    exact .done _ (by rw [← outcome, split, place])
  | some behind =>
    rw [ended] at outcome
    obtain ⟨part, rfl, found⟩ := find?_comment_some rest behind ended
    have stop : byteSize (before ++ pending ++ ['/', '*']) + byteSize part + 2 =
        byteSize (before ++ pending ++ (['/', '*'] ++ (part ++ ['*', '/']))) := by
      simp only [byteSize_append, Nat.add_assoc]
      rfl
    have taken := (split_behind ..).symm.trans outcome
    rw [found, Option.map_some, stop]
    refine .on _ _ (byteSize_lt_behind _ _ _) (.taken _ behind _ _ ?_ taken)
    rw [whole]
    simp

theorem Follows.literal (before pending left : List Char) (quote : Char)
    (whole : script.toList = before ++ pending ++ quote :: left)
    (start : state.start = byteSize before) (quoted : isQuote quote = true)
    (outcome : split script state.found (state.current ++ pending)
      (Script.pieces (quote :: left)) = Script.statements script) :
    Leads (Follows script) (· = Script.statements script) (byteSize (before ++ pending))
      ((skipLiteral script.toList (byteSize (before ++ pending))).map fun
        | none => .done (.error (.parse
            (.unterminatedQuote (byteSize (before ++ pending))) [] script))
        | some next => .on next state) := by
  have place : byteSize script.toList - (byteSize left + 1) = byteSize (before ++ pending) := by
    rw [whole, byteSize_append, byteSize_narrow_cons quote left (isWide_of_isQuote quote quoted),
      Nat.add_sub_cancel_right]
  rw [Script.pieces_quote quote left quoted] at outcome
  rw [whole, skipLiteral_eq _ left quote quoted]
  cases literal : literal? quote left with
  | none =>
    rw [literal] at outcome
    exact .done _ (by rw [← outcome, split, place])
  | some passed =>
    obtain ⟨part, rest⟩ := passed
    obtain ⟨same, _⟩ := readUntil_append _ _ _ _ _ literal
    rw [literal] at outcome
    refine .on _ _ (byteSize_lt_behind _ _ _) (.on before pending (quote :: part) rest [] _ start ?_
      outcome)
    rw [whole, same, ← List.cons_append, ← List.append_assoc]
    exact .between _ rest

theorem Follows.passed (before pending left : List Char) (char : Char)
    (whole : script.toList = before ++ pending ++ char :: left)
    (start : state.start = byteSize before) (narrow : isWide char = false)
    (outcome : split script state.found (state.current ++ pending)
      (Script.pieces (char :: left)) = Script.statements script) :
    Leads (Follows script) (· = Script.statements script) (byteSize (before ++ pending))
      (statementsTurn script (byteSize (before ++ pending)) state) := by
  rw [statementsTurn_eq script state before pending left char whole start narrow]
  by_cases semicolon : char = ';'
  · subst semicolon
    rw [if_pos rfl]
    exact .on _ _ (Nat.lt_succ_self _) (.semicolon before pending left whole outcome)
  rw [if_neg semicolon]
  by_cases line : char = '-' ∧ left.head? = some '-'
  · rw [if_pos line]
    obtain ⟨rfl, next⟩ := line
    obtain ⟨rest, rfl⟩ := List.head?_eq_some_iff.mp next
    exact Follows.line before pending rest whole outcome
  rw [if_neg line]
  by_cases block : char = '/' ∧ left.head? = some '*'
  · rw [if_pos block]
    obtain ⟨rfl, next⟩ := block
    obtain ⟨rest, rfl⟩ := List.head?_eq_some_iff.mp next
    exact Follows.block before pending rest whole outcome
  rw [if_neg block]
  cases quoted : isQuote char with
  | true =>
    rw [if_pos rfl]
    exact Follows.literal before pending left char whole start quoted outcome
  | false =>
    rw [if_neg (by simp)]
    have stands : (Script.Token.char char).Stands left :=
      ⟨quoted, by rwa [Script.mark_prefix_iff], by rwa [Script.mark_prefix_iff]⟩
    rw [Script.pieces_char char left semicolon stands] at outcome
    refine .on _ _ (Nat.lt_succ_self _) (.on before pending [char] left [] _ start ?_ outcome)
    have single : byteSize (before ++ pending ++ [char]) = byteSize (before ++ pending) + 1 :=
      byteSize_behind _ char [] narrow
    rw [whole, List.append_cons, ← single]
    exact .between _ left

theorem Follows.turned (inside : place < byteSize script.toList)
    (follows : state.Follows script place) :
    Leads (Follows script) (· = Script.statements script) place
      (statementsTurn script place state) := by
  obtain ⟨before, pending, rest, more, at_, start, outcome⟩ := follows
  rcases at_.step inside with
    ⟨char, left, rfl, rfl, narrow, rfl, read, next⟩ |
      ⟨byte, moved, left, later, read, wide, rfl, each, _, next⟩
  · exact Follows.passed before pending left char at_.split start narrow outcome
  · rw [pieces_wide moved left each] at outcome
    rw [statementsTurn_wide script place state byte read wide]
    exact .on _ _ (Nat.lt_succ_self place)
      (.on before pending moved left later _ start next outcome)

end Splitting

theorem statements_eq (script : String) : statements script = .ok (Script.statements script) := by
  obtain ⟨result, scanned, rfl⟩ := scan_ok _ (statementsTurn script) (statementsEnd script)
    (Splitting.Follows script) (· = Script.statements script)
    (fun _ _ beyond follows => follows.ended beyond)
    (fun _ _ inside follows => follows.turned inside) 0 {}
    ⟨[], [], script.toList, [], .start _, rfl, split_start script⟩
  exact scanned

/-- The marks of a text that is left are numbered one after the other, and what is behind the last one
completes the rendered text. -/
theorem foldlM_numberMark (text before rest : List Char) (pieces : List (List Char))
    (cut : Cut rest pieces) (state : Numbering) (split : text = before ++ rest)
    (start : state.start = byteSize before) :
    ∃ last left,
      ((markPlaces rest).map (byteSize before + ·)).foldlM
        (fun state place => numberMark text place state) state = .ok last ∧
      textFrom text last.start = .ok left ∧
      last.out ++ left = state.out ++ Quoting.plain.numbered state.count rest := by
  induction cut generalizing before state with
  | last piece tail unmarked left_open =>
    refine ⟨state, piece ++ tail, ?_, ?_, ?_⟩
    · rw [unmarked.markPlaces_behind, markPlaces_of_pieces tail left_open.pieces]
      rfl
    · rw [split, start, textFrom_append]
    · rw [unmarked.numbered, left_open.numbered]
  | mark piece tail pieces unmarked cut ih =>
    have taken : slice text state.start (byteSize (before ++ piece)) = .ok piece := by
      rw [split, start, ← List.append_assoc, slice_append]
    have behind : byteSize (before ++ piece ++ ['?']) = byteSize (before ++ piece) + 1 :=
      byteSize_behind _ '?' [] (by decide)
    obtain ⟨last, left, folded, rest, rendered⟩ := ih (before ++ piece ++ ['?'])
      ⟨state.out ++ piece ++ '$' :: Nat.toDigits 10 (state.count + 1),
        byteSize (before ++ piece) + 1, state.count + 1⟩ (by simp [split]) behind.symm
    refine ⟨last, left, ?_, rest, ?_⟩
    · rw [unmarked.markPlaces_behind, markPlaces_mark, List.foldlM_cons, numberMark, taken]
      exact folded
    · rw [rendered, unmarked.numbered, Quoting.numbered]
      simp

theorem renderDollar_eq (statement : Statement) :
    renderDollar statement = .ok (statement.render .dollar) := by
  obtain ⟨first, others, cut⟩ := Cut.exists_pieces statement.sql.toList
  obtain ⟨last, left, folded, rest, rendered⟩ :=
    foldlM_numberMark statement.sql.toList [] _ _ cut {} rfl rfl
  have own : (markPlaces statement.sql.toList).map (byteSize [] + ·) =
      markPlaces statement.sql.toList := by
    simp [byteSize]
  rw [own] at folded
  rw [renderDollar, scanPlaceholders_eq, folded]
  simp only [bind, Except.bind, rest, rendered]
  rfl

/-- The readers go over the bytes of every text without a slip: they read inside the text and cut it
between characters, no group is closed that is not open, and no loop stands still. What they come to
is what is read of the text. -/
theorem readers_sound (sql : String) :
    tokenize sql = .ok (SqlCompose.tokenize sql) ∧
    (∀ chunks, SqlCompose.tokenize sql = .ok chunks → ∀ chunk ∈ chunks,
      keyword chunk = .ok chunk.keyword ∧ body chunk = .ok chunk.body) ∧
    statements sql = .ok (Script.statements sql) ∧
    ∀ params, renderDollar ⟨sql, params⟩ = .ok (Statement.render ⟨sql, params⟩ .dollar) := by
  refine ⟨tokenize_eq sql, fun chunks read chunk member => ?_, statements_eq sql,
    fun params => renderDollar_eq ⟨sql, params⟩⟩
  exact ⟨keyword_eq sql chunks read chunk member, body_eq sql chunks read chunk member⟩

/-- The backslash in the literal takes the first byte of the wide character behind it along. -/
theorem readers_sound_escaped_wide :
    SqlCompose.tokenize "select '\x5c\u00e9;' from t;?" =
      .ok [⟨some .select, "select '\x5c\u00e9;' "⟩, ⟨some .source, "from t;?"⟩] ∧
    tokenize "select '\x5c\u00e9;' from t;?" =
      .ok (.ok [⟨some .select, "select '\x5c\u00e9;' "⟩, ⟨some .source, "from t;?"⟩]) ∧
    keyword ⟨some .select, "select '\x5c\u00e9;' "⟩ = .ok "select" ∧
    body ⟨some .select, "select '\x5c\u00e9;' "⟩ = .ok "'\x5c\u00e9;'" ∧
    statements "select '\x5c\u00e9;' from t;?" =
      .ok (.ok ["select '\x5c\u00e9;' from t", "?"]) ∧
    renderDollar ⟨"select '\x5c\u00e9;' from t;?", []⟩ = .ok "select '\x5c\u00e9;' from t;$1" := by
  have read : SqlCompose.tokenize "select '\x5c\u00e9;' from t;?" =
      .ok [⟨some .select, "select '\x5c\u00e9;' "⟩, ⟨some .source, "from t;?"⟩] :=
    tokenize_of_shown _ _ (by decide +kernel)
  have split : Script.statements "select '\x5c\u00e9;' from t;?" =
      .ok ["select '\x5c\u00e9;' from t", "?"] := by cbv
  obtain ⟨tokenized, parts, cut, rendered⟩ := readers_sound "select '\x5c\u00e9;' from t;?"
  obtain ⟨spelled, bodied⟩ := parts _ read _ List.mem_cons_self
  rw [read] at tokenized
  rw [split] at cut
  exact ⟨read, tokenized, spelled, bodied.trans (by decide +kernel), cut,
    (rendered []).trans (by decide +kernel)⟩

end Bytewise

end SqlCompose
