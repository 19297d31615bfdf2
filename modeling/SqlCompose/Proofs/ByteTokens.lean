import SqlCompose.Proofs.Keywords
import SqlCompose.Proofs.Rereading
import SqlCompose.Proofs.Skipping

/-! The tokenizer goes over the bytes of a text without a slip and finds the chunks that the text is
read into, and so do the readers of a chunk. -/
namespace SqlCompose

open Text

theorem Clause.begins_eq (keyword text : List Char) :
    begins keyword text =
      (decide (keyword.length ≤ text.length) &&
        (decide ((text.take keyword.length).map Char.toUpper = keyword) &&
          text[keyword.length]?.all isAsciiBlank)) := by
  induction keyword generalizing text with
  | nil => cases text <;> simp [begins]
  | cons letter keyword ih =>
    cases text with
    | nil => simp [begins]
    | cons char text =>
      rw [begins, ih]
      by_cases same : letter = char.toUpper <;> simp [same, eq_comm]

namespace Bytewise

theorem keywordAt_eq (front rest : List Char) :
    keywordAt (front ++ rest) (byteSize front) = .ok (Clause.at? rest) := by
  have inside : byteSize front ≤ byteSize (front ++ rest) := by
    rw [byteSize_append]
    omega
  have each : (fun clause : Clause =>
      if clause.keyword.length ≤ (bytes rest).length then do
        let spelled ← bytesTo (bytes rest) clause.keyword.length
        return spelled.map Char.toUpper = clause.keyword.toList &&
          (bytes rest)[clause.keyword.length]?.all isAsciiBlank
      else (return false : Checked Bool)) =
      fun clause => pure (Clause.begins clause.keyword.toList (bytes rest)) := by
    funext clause
    rw [Clause.begins_eq, String.length_toList]
    by_cases short : clause.keyword.length ≤ (bytes rest).length
    · rw [if_pos short, bytesTo, if_pos short, decide_eq_true short]
      rfl
    · rw [if_neg short, decide_eq_false short]
      rfl
  rw [keywordAt, bytesFrom, if_pos inside, drop_bytes]
  refine (congrArg (Clause.all.findM? ·) each).trans ?_
  rw [List.findM?_pure]
  exact congrArg Except.ok (Clause.at?_bytes rest)

namespace Lexing

def outcome (state : Lexing) (sql : String) (pending : List Char) (place : Nat) (lexed : Lexed) :
    Except Error (List Chunk) :=
  match lexed.unclosed with
  | none => .ok (state.close (pending ++ lexed.lead) ++ lexed.tagged)
  | some unclosed => .error (.parse (unclosed.fault (place + byteSize lexed.text))
      (if lexed.parts.isEmpty then state.tags
        else (state.close (pending ++ lexed.lead) ++ lexed.tagged).map Chunk.tag) sql)

theorem outcome_behind (state : Lexing) (sql : String) (pending text : List Char) (place : Nat)
    (lexed : Lexed) :
    state.outcome sql pending place (lexed.behind text) =
      state.outcome sql (pending ++ text) (place + byteSize text) lexed := by
  rw [outcome, outcome, Lexed.text_behind, byteSize_append, Nat.add_assoc, List.append_assoc]
  rfl

theorem outcome_startingWith (state : Lexing) (sql : String) (pending : List Char) (place : Nat)
    (lexed : Lexed) (clause : Clause) (start : Nat) (boundary : Bool) :
    state.outcome sql pending place (lexed.startingWith clause) =
      (Lexing.mk (state.close pending) (some clause) start boundary).outcome sql [] place
        lexed := by
  have closed : (Lexing.mk (state.close pending) (some clause) start boundary).close lexed.lead =
      state.close pending ++ [⟨some clause, String.ofList lexed.lead⟩] := rfl
  have chunks : state.close (pending ++ (lexed.startingWith clause).lead) ++
      (lexed.startingWith clause).tagged =
      state.close pending ++ [⟨some clause, String.ofList lexed.lead⟩] ++ lexed.tagged := by
    rw [Lexed.startingWith, List.append_nil, List.append_assoc]
    rfl
  have tags (opened : Chunk) (same : opened.clause = some clause) :
      (state.close pending ++ [opened] ++ lexed.tagged).map Chunk.tag =
        if lexed.parts.isEmpty then
          (Lexing.mk (state.close pending) (some clause) start boundary).tags
        else (state.close pending ++ [opened] ++ lexed.tagged).map Chunk.tag := by
    cases parts : lexed.parts with
    | nil => simp [Lexing.tags, Lexed.tagged, parts, Chunk.tag, same]
    | cons part rest => rfl
  rw [outcome, outcome, chunks, Lexed.text_startingWith, List.nil_append, closed, ← tags _ rfl]
  rfl

theorem outcome_start (sql : String) (lexed : Lexed) (read : lexed = Lexed.ofText true sql.toList) :
    (Lexing.mk [] none 0 true).outcome sql [] 0 lexed = SqlCompose.tokenize sql := by
  have closed : (Lexing.mk [] none 0 true).close lexed.lead = lexed.leading := by
    have blank : (Chunk.body ⟨none, String.ofList lexed.lead⟩).isEmpty =
        (trim lexed.lead).isEmpty := by
      simp only [Chunk.body, trimmed, String.toList_ofList]
      cases trim lexed.lead <;> simp
    rw [close, Lexed.leading, blank]
    cases (trim lexed.lead).isEmpty <;> rfl
  rw [outcome, SqlCompose.tokenize, ← read, List.nil_append, closed, Nat.zero_add]
  rfl

def Follows (sql : String) (place : Nat) (state : Lexing) : Prop :=
  ∃ before pending rest more, At sql.toList place (before ++ pending) rest more ∧
    state.start = byteSize before ∧ (more ≠ [] → state.boundary = false) ∧
    state.outcome sql pending (byteSize (before ++ pending)) (Lexed.ofText state.boundary rest) =
      SqlCompose.tokenize sql

end Lexing

theorem byteSize_spelled (clause : Clause) (spelled : List Char)
    (upper : spelled.map Char.toUpper = clause.keyword.toList) :
    byteSize spelled = clause.keyword.length := by
  have narrow : ∀ char ∈ spelled, isWide char = false := by
    intro char member
    rcases clause.spelled_lettered spelled upper char member with alphabetic | rfl
    · exact isWide_of_isAlpha char alphabetic
    · decide
  rw [clause.length_spelled spelled upper]
  clear upper
  induction spelled with
  | nil => rfl
  | cons char rest ih =>
    obtain ⟨first, others⟩ := List.forall_mem_cons.mp narrow
    rw [byteSize_narrow_cons char rest first, ih others, List.length_cons]

theorem tokenizeTurn_keyword (sql : String) (place : Nat) (state : Lexing) (clause : Clause)
    (text : List Char)
    (keyed : state.keyed sql.toList place = .ok (some clause))
    (cut : slice sql.toList state.start place = .ok text) :
    tokenizeTurn sql place state = .ok (.on (place + clause.keyword.length)
      ⟨state.close text, some clause, place, state.boundary⟩) := by
  rw [tokenizeTurn, keyed]
  simp only [bind, Except.bind, cut]
  rfl

theorem tokenizeTurn_byte (sql : String) (place : Nat) (state : Lexing) (byte : Char)
    (keyed : state.keyed sql.toList place = .ok none)
    (read : byteAt sql.toList place = .ok byte) :
    tokenizeTurn sql place state =
      if isQuote byte then
        (skipLiteral sql.toList place).map fun
          | none => .done (.error (.parse (.unterminatedQuote place) state.tags sql))
          | some next => .on next { state with boundary := false }
      else if byte = '(' then
        (skipGroup sql.toList place).map fun
          | none => .done (.error (.parse (.unbalancedParenthesis place) state.tags sql))
          | some next => .on next { state with boundary := false }
      else .ok (.on (place + 1) { state with boundary := isAsciiBlank byte }) := by
  rw [tokenizeTurn, keyed]
  simp only [bind, Except.bind, read]
  refine if_congr Iff.rfl ?_ (if_congr Iff.rfl ?_ rfl)
  · exact bind_eq_map _ _ _ fun passed => by cases passed <;> rfl
  · exact bind_eq_map _ _ _ fun passed => by cases passed <;> rfl

theorem Lexing.keyed_eq (state : Lexing) (text front rest more : List Char) (place : Nat)
    (at_ : At text place front rest more) (settled : more ≠ [] → state.boundary = false) :
    state.keyed text place = .ok (if state.boundary then Clause.at? rest else none) := by
  cases counts : state.boundary with
  | false => rw [Lexing.keyed, counts]; rfl
  | true =>
    have between : more = [] := by
      by_contra divided
      rw [settled divided] at counts
      cases counts
    subst between
    have passed := at_.passed
    rw [List.length_nil, Nat.add_zero] at passed
    rw [Lexing.keyed, counts, if_pos rfl, if_pos rfl, at_.split, passed, keywordAt_eq]

theorem ofText_bounded (rest : List Char)
    (bounded : ∀ char ∈ rest.head?, isAsciiBlank char = true) :
    Lexed.ofText false rest = Lexed.ofText true rest := by
  cases rest with
  | nil => rw [Lexed.ofText, Lexed.ofText]
  | cons blank rest =>
    rw [Lexed.ofText_gap false blank rest (bounded blank rfl),
      Lexed.ofText_gap true blank rest (bounded blank rfl)]

namespace Lexing

variable {sql : String} {place : Nat} {state : Lexing}

theorem Follows.ended (beyond : byteSize sql.toList ≤ place) (follows : state.Follows sql place) :
    ∃ result, tokenizeEnd sql place state = .ok result ∧ result = SqlCompose.tokenize sql := by
  obtain ⟨before, pending, rest, more, at_, start, _, outcome⟩ := follows
  obtain ⟨rfl, rfl⟩ := at_.ended beyond
  refine ⟨.ok (state.close pending), ?_, ?_⟩
  · rw [tokenizeEnd, at_.split, List.append_nil, start, textFrom_append]
    rfl
  · rw [← outcome, Lexed.ofText, Lexing.outcome]
    simp [Lexed.finished, Lexed.tagged]

theorem Follows.keyword (before pending spelled rest : List Char) (clause : Clause)
    (split : sql.toList = before ++ pending ++ (spelled ++ rest))
    (upper : spelled.map Char.toUpper = clause.keyword.toList)
    (bounded : ∀ char ∈ rest.head?, isAsciiBlank char = true)
    (outcome : state.outcome sql pending (byteSize (before ++ pending))
      (Lexed.ofText true (spelled ++ rest)) = SqlCompose.tokenize sql) :
    Follows sql (byteSize (before ++ pending) + clause.keyword.length)
      ⟨state.close pending, some clause, byteSize (before ++ pending), true⟩ := by
  rw [Lexed.ofText_opening clause spelled rest upper bounded, ofText_bounded rest bounded,
    outcome_startingWith _ _ _ _ _ _ (byteSize (before ++ pending)) true, outcome_behind,
    ← byteSize_append] at outcome
  refine ⟨before ++ pending, spelled, rest, [], ?_, rfl, by simp, outcome⟩
  rw [split, ← List.append_assoc, ← byteSize_spelled clause spelled upper, ← byteSize_append]
  exact .between _ rest

theorem Follows.on (before pending moved rest left later : List Char) (next : Nat)
    (boundary : Bool) (start : state.start = byteSize before)
    (at_ : At sql.toList next (before ++ pending ++ moved) left later)
    (settled : later ≠ [] → boundary = false)
    (read : Lexed.ofText state.boundary rest = (Lexed.ofText boundary left).behind moved)
    (outcome : state.outcome sql pending (byteSize (before ++ pending))
      (Lexed.ofText state.boundary rest) = SqlCompose.tokenize sql) :
    Follows sql next { state with boundary } := by
  rw [read, outcome_behind, ← byteSize_append, List.append_assoc] at outcome
  rw [List.append_assoc] at at_
  exact ⟨before, pending ++ moved, left, later, at_, start, settled, outcome⟩

theorem Follows.set (before pending part rest left : List Char) (char : Char)
    (split : sql.toList = before ++ pending ++ char :: left)
    (start : state.start = byteSize before) (same : left = part ++ rest)
    (read : Lexed.ofText state.boundary (char :: left) =
      (Lexed.ofText false rest).behind (char :: part))
    (outcome : state.outcome sql pending (byteSize (before ++ pending))
      (Lexed.ofText state.boundary (char :: left)) = SqlCompose.tokenize sql) :
    Follows sql (byteSize (before ++ pending ++ char :: part))
      { state with boundary := false } := by
  refine Follows.on before pending (char :: part) (char :: left) rest [] _ false start ?_ (by simp)
    read outcome
  rw [split, same, ← List.cons_append, ← List.append_assoc]
  exact .between _ rest

theorem Follows.passed (before pending left : List Char) (char : Char)
    (split : sql.toList = before ++ pending ++ char :: left)
    (start : state.start = byteSize before) (narrow : isWide char = false)
    (keyed : state.keyed sql.toList (byteSize (before ++ pending)) = .ok none)
    (unkeyed : state.boundary = true → Clause.at? (char :: left) = none)
    (read : byteAt sql.toList (byteSize (before ++ pending)) = .ok char)
    (outcome : state.outcome sql pending (byteSize (before ++ pending))
      (Lexed.ofText state.boundary (char :: left)) = SqlCompose.tokenize sql) :
    Leads (Follows sql) (· = SqlCompose.tokenize sql) (byteSize (before ++ pending))
      (tokenizeTurn sql (byteSize (before ++ pending)) state) := by
  have forward := byteSize_lt_behind (before ++ pending) char
  rw [tokenizeTurn_byte sql _ state char keyed read]
  cases quoted : isQuote char with
  | true =>
    rw [if_pos rfl, split, skipLiteral_eq _ left char quoted]
    cases literal : literal? char left with
    | none =>
      rw [Lexed.ofText_unclosed_literal _ char left quoted literal] at outcome
      exact .done _ outcome
    | some passed =>
      obtain ⟨part, rest⟩ := passed
      obtain ⟨same, _⟩ := readUntil_append _ _ _ _ _ literal
      have set := Lexed.ofText_literal state.boundary char part rest left quoted literal
      exact .on _ _ (forward part)
        (.set before pending part rest left char split start same set outcome)
  | false =>
    rw [if_neg (by simp)]
    by_cases opening : char = '('
    · subst opening
      rw [if_pos rfl, split, skipGroup_eq]
      cases group : group? left with
      | none =>
        rw [Lexed.ofText_unclosed_group _ left group] at outcome
        exact .done _ outcome
      | some passed =>
        obtain ⟨part, rest⟩ := passed
        obtain ⟨same, _⟩ := readUntil_append _ _ _ _ _ group
        have set := Lexed.ofText_group state.boundary part rest left group
        exact .on _ _ (forward part)
          (.set before pending part rest left '(' split start same set outcome)
    · rw [if_neg opening]
      refine .on _ _ (Nat.lt_succ_self _) (Follows.on before pending [char] (char :: left) left [] _
        (isAsciiBlank char) start ?_ (by simp)
        (Lexed.ofText_step _ char left quoted opening unkeyed) outcome)
      have grown : byteSize (before ++ pending ++ [char]) = byteSize (before ++ pending) + 1 :=
        byteSize_behind _ char [] narrow
      rw [split, List.append_cons, ← grown]
      exact .between _ left

/-- At a place between characters a keyword counts if the character before it allows for one. -/
theorem Follows.narrow (before pending left : List Char) (char : Char)
    (split : sql.toList = before ++ pending ++ char :: left)
    (start : state.start = byteSize before) (narrow : isWide char = false)
    (keyed : state.keyed sql.toList (byteSize (before ++ pending)) =
      .ok (if state.boundary then Clause.at? (char :: left) else none))
    (read : byteAt sql.toList (byteSize (before ++ pending)) = .ok char)
    (outcome : state.outcome sql pending (byteSize (before ++ pending))
      (Lexed.ofText state.boundary (char :: left)) = SqlCompose.tokenize sql) :
    Leads (Follows sql) (· = SqlCompose.tokenize sql) (byteSize (before ++ pending))
      (tokenizeTurn sql (byteSize (before ++ pending)) state) := by
  cases found : if state.boundary then Clause.at? (char :: left) else none with
  | none =>
    rw [found] at keyed
    refine Follows.passed before pending left char split start narrow keyed (fun counts => ?_) read
      outcome
    rwa [counts, if_pos rfl] at found
  | some clause =>
    cases counts : state.boundary with
    | false =>
      rw [counts] at found
      cases found
    | true =>
      rw [found] at keyed
      rw [counts, if_pos rfl] at found
      obtain ⟨spelled, rest, same, upper, bounded⟩ := (clause.begins_iff_at? _).mpr found
      have cut : slice sql.toList state.start (byteSize (before ++ pending)) = .ok pending := by
        rw [split, start, slice_append]
      have positive : 0 < clause.keyword.length := by
        cases clause <;> decide
      rw [counts] at outcome
      rw [tokenizeTurn_keyword sql _ state clause pending keyed cut, counts]
      exact .on _ _ (Nat.lt_add_of_pos_right positive) (Follows.keyword before pending spelled rest
        clause (same ▸ split) upper bounded (same ▸ outcome))

theorem Follows.wide (before pending moved left more later : List Char) (byte : Char)
    (start : state.start = byteSize before) (read : byteAt sql.toList place = .ok byte)
    (wide : isWide byte = true) (each : ∀ char ∈ moved, isWide char = true)
    (between : moved = [] → more ≠ []) (settled : more ≠ [] → state.boundary = false)
    (keyed : state.keyed sql.toList place =
      .ok (if state.boundary then Clause.at? (moved ++ left) else none))
    (next : At sql.toList (place + 1) (before ++ pending ++ moved) left later)
    (outcome : state.outcome sql pending (byteSize (before ++ pending))
      (Lexed.ofText state.boundary (moved ++ left)) = SqlCompose.tokenize sql) :
    Leads (Follows sql) (· = SqlCompose.tokenize sql) place (tokenizeTurn sql place state) := by
  obtain ⟨unquoted, ungrouped, _, _, unblank, _⟩ := plain_of_isWide byte wide
  have unkeyed : (if state.boundary then Clause.at? (moved ++ left) else none) = none := by
    cases counts : state.boundary with
    | false => rfl
    | true =>
      cases moved with
      | nil =>
        rw [settled (between rfl)] at counts
        cases counts
      | cons char moved =>
        have high := each char List.mem_cons_self
        exact Clause.at?_of_unlettered char _ (plain_of_isWide char high).2.2.2.2.2
  have passed : Lexed.ofText state.boundary (moved ++ left) =
      (Lexed.ofText false left).behind moved := by
    cases moved with
    | nil => rw [settled (between rfl)]; rfl
    | cons char moved => exact Lexed.ofText_wide _ _ left (by simp) each
  rw [unkeyed] at keyed
  rw [tokenizeTurn_byte sql place state byte keyed read, unquoted, if_neg (by simp),
    if_neg ungrouped, unblank]
  exact .on _ _ (Nat.lt_succ_self place) (Follows.on before pending moved _ left later _ false start
    next (by simp) passed outcome)

theorem Follows.turned (inside : place < byteSize sql.toList) (follows : state.Follows sql place) :
    Leads (Follows sql) (· = SqlCompose.tokenize sql) place (tokenizeTurn sql place state) := by
  obtain ⟨before, pending, rest, more, at_, start, settled, outcome⟩ := follows
  have keyed := state.keyed_eq _ _ _ _ _ at_ settled
  rcases at_.step inside with
    ⟨char, left, rfl, rfl, narrow, rfl, read, next⟩ |
      ⟨byte, moved, left, later, read, wide, rfl, each, between, next⟩
  · exact Follows.narrow before pending left char at_.split start narrow keyed read outcome
  · exact Follows.wide before pending moved left more later byte start read wide each between
      settled keyed next outcome

end Lexing

theorem tokenize_eq (sql : String) : tokenize sql = .ok (SqlCompose.tokenize sql) := by
  obtain ⟨result, scanned, rfl⟩ := scan_ok _ (tokenizeTurn sql) (tokenizeEnd sql)
    (Lexing.Follows sql) (· = SqlCompose.tokenize sql)
    (fun _ _ beyond follows => follows.ended beyond)
    (fun _ _ inside follows => follows.turned inside) 0 {}
    ⟨[], [], sql.toList, [], .start _, rfl, by simp, Lexing.outcome_start sql _ rfl⟩
  exact scanned

/-- The keyword of a chunk of a text, and the character behind it, are whole characters. -/
theorem chunk_opens (sql : String) (chunks : List Chunk)
    (read : SqlCompose.tokenize sql = .ok chunks) (chunk : Chunk) (member : chunk ∈ chunks)
    (clause : Clause) (named : chunk.clause = some clause) :
    clause.Begins chunk.text.toList := by
  obtain ⟨part, rfl, found, _⟩ :=
    Lexed.part_of_tokenize sql chunks read chunk member (by rw [named]; simp)
  cases named
  rw [String.toList_ofList]
  exact (part.1.begins_iff_at? part.2).mpr found

theorem keyword_eq (sql : String) (chunks : List Chunk)
    (read : SqlCompose.tokenize sql = .ok chunks) (chunk : Chunk) (member : chunk ∈ chunks) :
    keyword chunk = .ok chunk.keyword := by
  obtain ⟨clause, text⟩ := chunk
  cases clause with
  | none => rfl
  | some clause =>
    obtain ⟨spelled, rest, split, upper, _⟩ := chunk_opens sql chunks read _ member clause rfl
    have length := clause.length_spelled spelled upper
    have cut := textTo_append spelled rest
    rw [byteSize_spelled clause spelled upper, length] at cut
    simp only [keyword, Chunk.keyword, split, length, List.take_left, cut]
    rfl

theorem body_eq (sql : String) (chunks : List Chunk) (read : SqlCompose.tokenize sql = .ok chunks)
    (chunk : Chunk) (member : chunk ∈ chunks) : body chunk = .ok chunk.body := by
  obtain ⟨clause, text⟩ := chunk
  cases clause with
  | none => rfl
  | some clause =>
    obtain ⟨spelled, rest, split, upper, bounded⟩ := chunk_opens sql chunks read _ member clause rfl
    have size := byteSize_spelled clause spelled upper
    have behind : (spelled ++ rest).drop (clause.keyword.length + 1) = rest.drop 1 := by
      rw [clause.length_spelled spelled upper, List.drop_length_add_append]
    simp only [body, Chunk.body, split, behind]
    cases rest with
    | nil =>
      rw [List.append_nil, size, if_neg (by omega)]
      rfl
    | cons gap rest =>
      have narrow := isWide_of_isAsciiBlank gap (bounded gap rfl)
      have stop : byteSize (spelled ++ [gap]) = clause.keyword.length + 1 := by
        rw [byteSize_behind spelled gap [] narrow, size]
        rfl
      have cut := textFrom_append (spelled ++ [gap]) rest
      rw [stop, List.append_assoc, List.singleton_append] at cut
      rw [byteSize_behind spelled gap rest narrow, size, if_pos (by omega), cut]
      rfl

end Bytewise

end SqlCompose
