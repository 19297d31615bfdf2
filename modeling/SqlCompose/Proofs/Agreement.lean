import SqlCompose.Proofs.Keywords
import SqlCompose.Proofs.Placeholders
import SqlCompose.Proofs.Resplitting
import SqlCompose.Text.Closed

/-! The readers of a text agree on its literals. What the reader of scripts gives out has no literal
that is left open, neither for the scan of placeholders nor for the reader of clauses; the latter can
only be stopped by a group. -/
namespace SqlCompose

namespace Text

theorem Quoting.step_plain (char : Char) (unquoted : isQuote char = false) :
    plain.step char = .plain := by
  simp [step, unquoted]

theorem Nesting.quoting_foldl (state : Nesting) (text : List Char) :
    (text.foldl pass state).quoting = text.foldl Quoting.step state.quoting := by
  induction text generalizing state with
  | nil => rfl
  | cons char rest ih => exact ih (state.pass char)

theorem LiteralEnd.pass (quote : Char) (part : List Char) (depth : Nat)
    (quoted : isQuote quote = true) (ends : LiteralEnd quote part) :
    part.foldl Nesting.pass ⟨depth, .inside quote⟩ = ⟨depth, .plain⟩ := by
  have unescaped := unescaped_of_isQuote quote quoted
  induction ends with
  | close => simp [Nesting.pass, Quoting.turn, Quoting.step, unescaped]
  | escape char rest _ ih => simpa [Nesting.pass, Quoting.turn, Quoting.step] using ih
  | plain char rest ordinary inside _ ih =>
    simpa [Nesting.pass, Quoting.turn, Quoting.step, ordinary, inside] using ih

theorem Nesting.pass_quote (quote : Char) (depth : Nat) (quoted : isQuote quote = true) :
    pass ⟨depth, .plain⟩ quote = ⟨depth, .inside quote⟩ := by
  have apart : quote ≠ '(' ∧ quote ≠ ')' := by
    constructor <;> rintro rfl <;> exact absurd quoted (by decide)
  simp [pass, Quoting.turn, Quoting.step, quoted, apart]

theorem Nesting.pass_plain (char : Char) (depth : Nat) (unquoted : isQuote char = false)
    (ungrouped : char ≠ '(' ∧ char ≠ ')') : pass ⟨depth, .plain⟩ char = ⟨depth, .plain⟩ := by
  simp [pass, Quoting.turn, Quoting.step, unquoted, ungrouped]

theorem GroupEnd.pass (part : List Char) (depth : Nat) (ends : GroupEnd part) :
    part.foldl Nesting.pass ⟨depth + 1, .plain⟩ = ⟨depth, .plain⟩ := by
  induction ends generalizing depth with
  | close =>
    have less : ((depth + 1 : Nat) + (-1) : Int).toNat = depth := by omega
    exact congrArg (fun depth => Nesting.mk depth .plain) less
  | literal quote part rest quoted literal _ ih =>
    rw [List.foldl_cons, Nesting.pass_quote quote _ quoted, List.foldl_append,
      literal.pass quote part _ quoted, ih]
  | group part rest _ _ inner after =>
    have opening : Nesting.pass ⟨depth + 1, .plain⟩ '(' = ⟨depth + 1 + 1, .plain⟩ := rfl
    rw [List.foldl_cons, opening, List.foldl_append, inner, after]
  | plain char rest unquoted ungrouped _ ih =>
    rw [List.foldl_cons, Nesting.pass_plain char _ unquoted ungrouped, ih]

theorem Atom.pass (atom : List Char) (whole : Atom atom) :
    atom.foldl Nesting.pass ⟨0, .plain⟩ = ⟨0, .plain⟩ := by
  cases whole with
  | literal quote part quoted ends =>
    rw [List.foldl_cons, Nesting.pass_quote quote 0 quoted, ends.pass quote part 0 quoted]
  | group part ends => exact ends.pass part 0
  | plain char unquoted ungrouped =>
    by_cases closing : char = ')'
    · subst closing
      rfl
    · exact Nesting.pass_plain char 0 unquoted ⟨ungrouped, closing⟩

theorem Atom.pass_all (atoms : List (List Char)) (whole : ∀ atom ∈ atoms, Atom atom) :
    atoms.flatten.foldl Nesting.pass ⟨0, .plain⟩ = ⟨0, .plain⟩ := by
  induction atoms with
  | nil => rfl
  | cons atom rest ih =>
    obtain ⟨first, others⟩ := List.forall_mem_cons.mp whole
    rw [List.flatten_cons, List.foldl_append, first.pass, ih others]

/-- Where the end of a literal is not found, the text ends inside it. -/
theorem foldl_step_of_unread (state : Quoting) (text : List Char) (inside : state ≠ .plain)
    (unread : readUntil Quoting.within state text = none) :
    text.foldl Quoting.step state ≠ .plain := by
  induction text generalizing state with
  | nil => exact inside
  | cons char rest ih =>
    rw [readUntil] at unread
    cases next : state.step char with
    | plain =>
      have stopped : state.within char = none := by simp [Quoting.within, next]
      rw [stopped] at unread
      cases unread
    | inside quote =>
      have stepped : state.within char = some (.inside quote) := by simp [Quoting.within, next]
      rw [stepped] at unread
      rw [List.foldl_cons, next]
      exact ih _ (by simp) (by simpa using unread)
    | escaped quote =>
      have stepped : state.within char = some (.escaped quote) := by simp [Quoting.within, next]
      rw [stepped] at unread
      rw [List.foldl_cons, next]
      exact ih _ (by simp) (by simpa using unread)

theorem Nesting.within_of_overclosed (state : Nesting) (char : Char)
    (overclosed : state.depth + state.quoting.turn char < 0) : state.within char = none := by
  obtain ⟨depth, quoting⟩ := state
  unfold Quoting.turn at overclosed
  split at overclosed
  · omega
  · split at overclosed
    · rename_i closing
      obtain ⟨rfl, rfl⟩ : quoting = .plain ∧ char = ')' := closing
      cases depth with
      | zero => rfl
      | succ depth =>
        have opened : ¬ ((depth + 1 : Nat) : Int) + -1 < 0 := by omega
        exact absurd overclosed opened
    · omega

theorem depth_of_unread (state : Nesting) (text : List Char)
    (unread : readUntil Nesting.within state text = none) :
    0 < (text.foldl Nesting.pass ⟨state.depth + 1, state.quoting⟩).depth := by
  induction text generalizing state with
  | nil => exact Nat.succ_pos _
  | cons char rest ih =>
    rw [readUntil] at unread
    rcases Int.lt_or_le (state.depth + state.quoting.turn char) 0 with overclosed | opened
    · rw [state.within_of_overclosed char overclosed] at unread
      cases unread
    · rw [state.within_of_open char opened] at unread
      have later := ih _ (by simpa using unread)
      have counted : ((state.depth + 1 : Nat) + state.quoting.turn char).toNat =
          (state.depth + state.quoting.turn char).toNat + 1 := by omega
      rw [List.foldl_cons, Nesting.pass, counted]
      exact later

end Text

open Text

/-- The reader of clauses is not stopped by a literal where all of them end, and by a group if one
is open at the end. -/
theorem Lexed.unclosed_of_literals (boundary : Bool) (text : List Char)
    (literals : text.foldl Quoting.step .plain = .plain) :
    (ofText boundary text).unclosed =
      if 0 < (text.foldl Nesting.pass ⟨0, .plain⟩).depth then some .group else none := by
  obtain ⟨atoms, rest, accounts⟩ := accounts_ofText boundary text
  have behind : text.foldl Nesting.pass ⟨0, .plain⟩ = rest.foldl Nesting.pass ⟨0, .plain⟩ := by
    rw [accounts.reading.split, List.foldl_append, Atom.pass_all atoms accounts.reading.whole]
  have closed : rest.foldl Quoting.step .plain = .plain := by
    have quoting := congrArg Nesting.quoting behind
    rw [Nesting.quoting_foldl, Nesting.quoting_foldl, literals] at quoting
    exact quoting.symm
  have stuck := accounts.reading.none_of_stuck
  rw [accounts.unclosed, behind]
  cases rest with
  | nil => rfl
  | cons opening more =>
    rw [atom?] at stuck
    split at stuck
    · rename_i quoted
      rw [Option.map_eq_none_iff] at stuck
      have left_open := foldl_step_of_unread (.inside opening) more (by simp) stuck
      simp only [List.foldl_cons, Quoting.step, quoted, if_true] at closed
      exact absurd closed left_open
    · rename_i unquoted
      split at stuck
      · rename_i grouped
        subst grouped
        rw [Option.map_eq_none_iff] at stuck
        have left_open := depth_of_unread ⟨0, .plain⟩ more stuck
        exact (if_pos left_open).symm
      · cases stuck

namespace Script

theorem Token.literals_kept (token : Token) (after : List Char) (stands : token.Stands after) :
    token.kept.foldl Quoting.step .plain = .plain := by
  cases token with
  | literal quote part =>
    have passed := congrArg Nesting.quoting (Atom.literal quote part stands.1 stands.2).pass
    rwa [Nesting.quoting_foldl] at passed
  | lineComment part => rfl
  | blockComment part => rfl
  | char value => exact Quoting.step_plain value stands.1

theorem Settled.literals (text : List Char) (settled : Settled text) :
    text.foldl Quoting.step .plain = .plain := by
  induction settled with
  | nil => rfl
  | step token after uncommented _ stands _ ih =>
    rw [List.foldl_append, ← uncommented, token.literals_kept after stands, ih]

/-- In a statement of a script every literal has its end where the scan of placeholders comes to it,
so that the scan of a text behind the statement begins anew. The reader of clauses is never stopped by
a literal, and it is stopped by a group exactly when one is open at the end. -/
theorem statements_scanned (script : String) (list : List String)
    (split : statements script = .ok list) (statement : String) (member : statement ∈ list) :
    (∀ front quote back, statement.toList = front ++ quote :: back →
      front.foldl Quoting.step .plain = .plain → isQuote quote = true →
        ∃ part left, literal? quote back = some (part, left)) ∧
    (∀ more params, (Statement.mk (statement ++ more) params).placeholderCount =
      (Statement.mk statement params).placeholderCount +
        (Statement.mk more params).placeholderCount) ∧
    (∀ place tags text,
      tokenize statement ≠ .error (.parse (.unterminatedQuote place) tags text)) ∧
    ((∃ place tags,
        tokenize statement = .error (.parse (.unbalancedParenthesis place) tags statement)) ↔
      0 < (statement.toList.foldl Nesting.pass ⟨0, .plain⟩).depth) := by
  have literals := (single_of_split script list split statement member).settled.literals
  have unclosed := Lexed.unclosed_of_literals true statement.toList literals
  refine ⟨?_, ?_, ?_⟩
  · intro front quote back parts plain quoted
    rw [parts, List.foldl_append, plain, List.foldl_cons] at literals
    cases read : literal? quote back with
    | some found => exact ⟨found.1, found.2, rfl⟩
    | none =>
      have left_open := foldl_step_of_unread (.inside quote) back (by simp) read
      simp only [Quoting.step, quoted, if_true] at literals
      exact absurd literals left_open
  · intro more params
    simp only [Statement.placeholderCount, String.toList_append, Quoting.placeholders_append,
      literals]
  · by_cases opened : 0 < (statement.toList.foldl Nesting.pass ⟨0, .plain⟩).depth
    · rw [if_pos opened] at unclosed
      have failed : tokenize statement = .error (.parse
          (.unbalancedParenthesis (byteSize (Lexed.ofText true statement.toList).text))
          (Lexed.ofText true statement.toList).tags statement) :=
        Lexed.tokenize_stopped statement _ .group rfl unclosed
      refine ⟨fun place tags text same => ?_, iff_of_true ⟨_, _, failed⟩ opened⟩
      rw [failed] at same
      cases same
    · rw [if_neg opened] at unclosed
      have read := Lexed.tokenize_closed statement _ rfl unclosed
      refine ⟨fun place tags text same => ?_, iff_of_false ?_ opened⟩
      · rw [read] at same
        cases same
      · rintro ⟨place, tags, same⟩
        rw [read] at same
        cases same

/-- A parenthesis in a literal or a comment does not count, and one that closes nothing neither. -/
theorem statements_scanned_open_group :
    statements "SELECT ')' FROM (t /* ) ' */; -- it's\n) ? '('" =
        .ok ["SELECT ')' FROM (t", ") ? '('"] ∧
      ∃ place tags, tokenize "SELECT ')' FROM (t" =
        .error (.parse (.unbalancedParenthesis place) tags "SELECT ')' FROM (t") := by
  have split : statements "SELECT ')' FROM (t /* ) ' */; -- it's\n) ? '('" =
      .ok ["SELECT ')' FROM (t", ") ? '('"] := by cbv
  obtain ⟨_, _, _, grouped⟩ := statements_scanned _ _ split "SELECT ')' FROM (t" (by simp)
  exact ⟨split, grouped.mpr (by decide)⟩

end Script

end SqlCompose
