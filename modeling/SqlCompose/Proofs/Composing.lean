import SqlCompose.Proofs.Marks

/-! Behind a text that closes its literals the scan of placeholders begins anew: what follows has its
placeholders where it has them by itself, and only their numbers are raised. -/
namespace SqlCompose

open Text

theorem Text.Cut.iff_eq (text first : List Char) (others : List (List Char))
    (cut : Cut text (first :: others)) (pieces : List (List Char)) :
    Cut text pieces ↔ pieces = first :: others := by
  constructor
  · intro again
    rw [again.eq_pieces, cut.eq_pieces]
  · rintro rfl
    exact cut

namespace Bytewise

variable {State : Type} (mark : Nat → State → Checked State)

theorem scanPlaceholders_append (first second : List Char) (closed : LiteralsClosed first)
    (state : State) :
    scanPlaceholders (first ++ second) mark state =
      (scanPlaceholders first mark state).bind
        (scanPlaceholders second fun place => mark (byteSize first + place)) := by
  rw [scanPlaceholders_eq, scanPlaceholders_eq, markPlaces_append first second closed,
    List.foldlM_append]
  refine congrArg (Except.bind _) (funext fun middle => ?_)
  rw [scanPlaceholders_eq, List.foldlM_map]

theorem scanPlaceholders_count (statement : Statement) :
    scanPlaceholders statement.sql.toList (fun _ count => return count + 1) 0 =
      .ok statement.placeholderCount := by
  rw [scanPlaceholders_eq, List.foldlM_pure, List.foldl_add_const, Nat.zero_add, Nat.one_mul,
    length_markPlaces]
  rfl

end Bytewise

namespace Statement

/-- Behind a text that closes its literals the placeholders of another one are found as they are by
themselves: the scan of both is the scan of the one and then of the other, their numbers add up, and
the other is rendered with its pieces as they were and its numbers raised. -/
theorem append_renumbers (first second : Statement) (params : List Value)
    (closed : LiteralsClosed first.sql.toList) :
    (∀ (State : Type) (mark : Nat → State → Checked State) (state : State),
      Bytewise.scanPlaceholders (first.sql ++ second.sql).toList mark state =
        (Bytewise.scanPlaceholders first.sql.toList mark state).bind
          (Bytewise.scanPlaceholders second.sql.toList fun place =>
            mark (byteSize first.sql.toList + place))) ∧
    (Statement.mk (first.sql ++ second.sql) params).placeholderCount =
      first.placeholderCount + second.placeholderCount ∧
    ∃ piece pieces,
      (∀ others, Cut second.sql.toList others ↔ others = piece :: pieces) ∧
      (second.render .dollar).toList = numberedFrom 1 piece pieces ∧
      ((Statement.mk (first.sql ++ second.sql) params).render .dollar).toList =
        (first.render .dollar).toList ++
          numberedFrom (first.placeholderCount + 1) piece pieces := by
  obtain ⟨piece, pieces, cut⟩ := Cut.exists_pieces second.sql.toList
  obtain ⟨own, others⟩ := List.cons.inj cut.eq_pieces
  refine ⟨fun State mark state => ?_, ?_, piece, pieces, cut.iff_eq _ _ _, ?_, ?_⟩
  · rw [String.toList_append]
    exact Bytewise.scanPlaceholders_append mark _ _ closed state
  · rw [placeholderCount, String.toList_append, Quoting.placeholders_append, closed.foldl]
    rfl
  · rw [render, String.toList_ofList, Quoting.numbered_pieces, own, others]
  · rw [render, render, String.toList_ofList, String.toList_ofList, String.toList_append,
      Quoting.numbered_append, closed.foldl, Quoting.numbered_pieces .plain (0 + _), own, others,
      Nat.zero_add]
    rfl

/-- The number in the second text and the mark in its literal stay, and so does what its open literal
hides. -/
theorem append_renumbers_quoted :
    LiteralsClosed (String.toList "a = '\x5c'?' AND b = ? AND ") ∧
    Statement.render ⟨"c = ? OR d = '?' OR e = $1 + ? OR \x60?", []⟩ .dollar =
      "c = $1 OR d = '?' OR e = $1 + $2 OR \x60?" ∧
    Statement.render
        ⟨"a = '\x5c'?' AND b = ? AND " ++ "c = ? OR d = '?' OR e = $1 + ? OR \x60?", []⟩ .dollar =
      "a = '\x5c'?' AND b = $1 AND c = $2 OR d = '?' OR e = $1 + $3 OR \x60?" ∧
    (Statement.mk
        ("a = '\x5c'?' AND b = ? AND " ++ "c = ? OR d = '?' OR e = $1 + ? OR \x60?")
        []).placeholderCount = 1 + 2 := by
  have closed : LiteralsClosed (String.toList "a = '\x5c'?' AND b = ? AND ") := by decide
  obtain ⟨_, counted, _⟩ := append_renumbers ⟨"a = '\x5c'?' AND b = ? AND ", []⟩
    ⟨"c = ? OR d = '?' OR e = $1 + ? OR \x60?", []⟩ [] closed
  exact ⟨closed, by decide +kernel, by decide +kernel, counted⟩

end Statement

end SqlCompose
