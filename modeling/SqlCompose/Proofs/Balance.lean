import SqlCompose.Proofs.Agreement
import SqlCompose.Proofs.ChunkRereading
import SqlCompose.Script.Token

/-! Semicolons in groups. The statements of a script close the groups that they open as long as every
semicolon stands outside groups. -/
namespace SqlCompose

namespace Text

theorem LiteralEnd.depth_front (quote : Char) (part : List Char) (ends : LiteralEnd quote part)
    (front : List Char) (inside : front <+: part) : (Quoting.inside quote).depth front = 0 := by
  induction ends generalizing front with
  | close =>
    rcases List.prefix_cons_iff.mp inside with rfl | ⟨more, rfl, within⟩
    · rfl
    · rw [List.prefix_nil.mp within]
      simp [Quoting.depth, Quoting.turn]
  | escape char rest _ ih =>
    rcases List.prefix_cons_iff.mp inside with rfl | ⟨more, rfl, within⟩
    · rfl
    · rcases List.prefix_cons_iff.mp within with rfl | ⟨last, rfl, behind⟩
      · simp [Quoting.depth, Quoting.turn]
      · simpa [Quoting.depth, Quoting.turn, Quoting.step] using ih last behind
  | plain char rest unescaped other _ ih =>
    rcases List.prefix_cons_iff.mp inside with rfl | ⟨more, rfl, within⟩
    · rfl
    · simpa [Quoting.depth, Quoting.turn, Quoting.step, unescaped, other] using ih more within

theorem Closed.of_append_closed (front text : List Char) (closed : Closed front)
    (whole : Closed (front ++ text)) : Closed text := by
  refine ⟨?_, fun part inside => ?_, ?_⟩
  · have literals := whole.literals
    rwa [List.foldl_append, closed.literals] at literals
  · have opened := whole.nonnegative (front ++ part)
      ((List.prefix_append_right_inj front).mpr inside)
    rwa [Quoting.depth_append, closed.literals, closed.balanced, Int.zero_add] at opened
  · have balanced := whole.balanced
    rwa [Quoting.depth_append, closed.literals, closed.balanced, Int.zero_add] at balanced

theorem Closed.of_closed_append (text back : List Char) (whole : Closed (text ++ back))
    (closed : Closed back) (literals : text.foldl Quoting.step .plain = .plain) : Closed text := by
  refine ⟨literals, fun part inside => ?_, ?_⟩
  · exact whole.nonnegative part (inside.trans (List.prefix_append text back))
  · have balanced := whole.balanced
    rwa [Quoting.depth_append, literals, closed.balanced, Int.add_zero] at balanced

theorem closed_of_blank (blanks : List Char) (blank : ∀ char ∈ blanks, isBlank char = true) :
    Closed blanks :=
  Closed.of_ordinary blanks fun char member => plain_of_isBlank char (blank char member)

end Text

namespace Script

open Text

theorem Settled.closed_trim_iff (text : List Char) (settled : Settled text) :
    Closed (Text.trim text) ↔ Closed text := by
  obtain ⟨front, back, split, leading, trailing⟩ := exists_trim text
  have before := closed_of_blank front leading
  have behind := closed_of_blank back trailing
  constructor
  · intro closed
    rw [split]
    exact before.append _ _ (closed.append _ _ behind)
  · intro closed
    rw [split] at closed
    have started := Closed.of_append_closed front _ before closed
    exact started.of_closed_append _ back behind settled.trim.literals

namespace Token

variable {token : Token} {after : List Char}

theorem depth_literal (quote : Char) (part : List Char) (stands : (literal quote part).Stands after)
    (front : List Char) (inside : front <+: quote :: part) : Quoting.plain.depth front = 0 := by
  rcases List.prefix_cons_iff.mp inside with rfl | ⟨more, rfl, within⟩
  · rfl
  · have opened : Quoting.plain.step quote = .inside quote := by simp [Quoting.step, stands.1]
    have unturned : Quoting.plain.turn quote = 0 := by
      rcases eq_of_isQuote quote stands.1 with rfl | rfl | rfl <;> rfl
    rw [Quoting.depth, opened, unturned, stands.2.depth_front quote part more within]
    rfl

theorem depth_kept (stands : token.Stands after) : Quoting.plain.depth token.kept = token.turn := by
  cases token with
  | literal quote part => exact depth_literal quote part stands _ (List.prefix_refl _)
  | lineComment part => rfl
  | blockComment part => rfl
  | char value =>
    by_cases opening : value = '('
    · subst opening
      rfl
    · by_cases closing : value = ')'
      · subst closing
        rfl
      · simp [kept, text, Quoting.depth, Quoting.turn, turn, opening, closing]

theorem depth_front (stands : token.Stands after) (front : List Char)
    (inside : front <+: token.kept) : Quoting.plain.depth front = 0 ∨ front = token.kept := by
  have single (char : Char) (within : front <+: [char]) :
      Quoting.plain.depth front = 0 ∨ front = [char] := by
    rcases List.prefix_cons_iff.mp within with rfl | ⟨more, rfl, rest⟩
    · exact .inl rfl
    · exact .inr (by rw [List.prefix_nil.mp rest])
  cases token with
  | literal quote part => exact .inl (depth_literal quote part stands front inside)
  | lineComment part => exact .inr (List.prefix_nil.mp inside)
  | blockComment part => exact single ' ' inside
  | char value => exact single value inside

end Token

theorem depth_append (tokens others : List Token) :
    depth (tokens ++ others) = depth tokens + depth others := by
  induction tokens with
  | nil => exact (Int.zero_add _).symm
  | cons token rest ih => rw [List.cons_append, depth, ih, depth, Int.add_assoc]

@[simp]
theorem depth_cons (token : Token) (tokens : List Token) :
    depth (token :: tokens) = token.turn + depth tokens := rfl

/-! What is kept of some tokens, each of which stands somewhere. -/
section

variable {tokens : List Token} (stands : ∀ token ∈ tokens, ∃ after, token.Stands after)

include stands

theorem literals_kept : (tokens.flatMap Token.kept).foldl Quoting.step .plain = .plain := by
  induction tokens with
  | nil => rfl
  | cons token rest ih =>
    obtain ⟨⟨after, first⟩, others⟩ := List.forall_mem_cons.mp stands
    rw [List.flatMap_cons, List.foldl_append, token.literals_kept after first, ih others]

theorem depth_kept : Quoting.plain.depth (tokens.flatMap Token.kept) = depth tokens := by
  induction tokens with
  | nil => rfl
  | cons token rest ih =>
    obtain ⟨⟨after, first⟩, others⟩ := List.forall_mem_cons.mp stands
    rw [List.flatMap_cons, Quoting.depth_append, token.literals_kept after first,
      Token.depth_kept first, ih others, depth_cons]

/-- A beginning of the text is as deep as the tokens before it. -/
theorem exists_depth (front : List Char) (inside : front <+: tokens.flatMap Token.kept) :
    ∃ before, before <+: tokens ∧ Quoting.plain.depth front = depth before := by
  induction tokens generalizing front with
  | nil =>
    rw [List.flatMap_nil, List.prefix_nil] at inside
    exact ⟨[], List.prefix_refl _, by rw [inside]; rfl⟩
  | cons token rest ih =>
    obtain ⟨⟨after, first⟩, others⟩ := List.forall_mem_cons.mp stands
    rw [List.flatMap_cons] at inside
    rcases prefix_append_cases front _ _ inside with early | ⟨more, behind, rfl⟩
    · rcases Token.depth_front first front early with level | rfl
      · exact ⟨[], List.nil_prefix, level⟩
      · exact ⟨[token], ⟨rest, rfl⟩, (Token.depth_kept first).trans (Int.add_zero _).symm⟩
    · obtain ⟨before, within, level⟩ := ih others more behind
      refine ⟨token :: before, (List.prefix_cons_inj token).mpr within, ?_⟩
      rw [Quoting.depth_append, token.literals_kept after first, Token.depth_kept first, level,
        depth_cons]

theorem closed_kept_iff : Closed (tokens.flatMap Token.kept) ↔ Balanced tokens := by
  constructor
  · intro closed
    refine ⟨?_, (depth_kept stands).symm.trans closed.balanced⟩
    rintro before ⟨after, rfl⟩
    have own : ∀ token ∈ before, ∃ after, token.Stands after := fun token member =>
      stands token (List.mem_append_left after member)
    rw [← depth_kept own]
    exact closed.nonnegative _ ⟨after.flatMap Token.kept, List.flatMap_append.symm⟩
  · intro balanced
    refine ⟨literals_kept stands, ?_, (depth_kept stands).trans balanced.balanced⟩
    intro front inside
    obtain ⟨before, within, level⟩ := exists_depth stands front inside
    rw [level]
    exact balanced.nonnegative before within

end

theorem Balanced.behind (first rest : List Token) (balanced : Balanced (first ++ rest))
    (level : depth first = 0) : Balanced rest := by
  refine ⟨fun before inside => ?_, ?_⟩
  · have opened := balanced.nonnegative (first ++ before)
      ((List.prefix_append_right_inj first).mpr inside)
    rwa [depth_append, level, Int.zero_add] at opened
  · have all := balanced.balanced
    rwa [depth_append, level, Int.zero_add] at all

theorem Balanced.front (first rest : List Token) (balanced : Balanced (first ++ rest))
    (level : depth first = 0) : Balanced first :=
  ⟨fun before inside => balanced.nonnegative before (inside.trans (List.prefix_append first rest)),
    level⟩

theorem semicolon_cases (first rest before after : List Token) (absent : .char ';' ∉ first)
    (same : first ++ .char ';' :: rest = before ++ .char ';' :: after) :
    before = first ∨
      ∃ more, before = first ++ .char ';' :: more ∧ rest = more ++ .char ';' :: after := by
  rcases List.append_eq_append_iff.mp same with ⟨more, rfl, behind⟩ | ⟨more, rfl, behind⟩
  · cases more with
    | nil => exact .inl (List.append_nil first)
    | cons token more =>
      rw [List.cons_append, List.cons.injEq] at behind
      obtain ⟨rfl, behind⟩ := behind
      exact .inr ⟨more, rfl, behind⟩
  · cases more with
    | nil => exact .inl (List.append_nil before).symm
    | cons token more =>
      rw [List.cons_append, List.cons.injEq] at behind
      obtain ⟨rfl, _⟩ := behind
      exact absurd (List.mem_append_right before List.mem_cons_self) absent

theorem Balanced.pieces_iff (tokens : List Token) (balanced : Balanced tokens) :
    (∀ piece ∈ tokens.splitOn (.char ';'), Balanced piece) ↔
      ∀ before after, tokens = before ++ .char ';' :: after → depth before = 0 := by
  induction length : tokens.length using Nat.strongRecOn generalizing tokens with
  | ind length ih =>
    subst length
    by_cases present : Token.char ';' ∈ tokens
    · obtain ⟨first, rest, rfl, absent⟩ := List.eq_append_cons_of_mem present
      have later (level : depth first = 0) :
          (∀ piece ∈ rest.splitOn (.char ';'), Balanced piece) ↔
            ∀ before after, rest = before ++ .char ';' :: after → depth before = 0 := by
        have shorter : rest.length < (first ++ Token.char ';' :: rest).length := by
          simp only [List.length_append, List.length_cons]
          omega
        refine ih rest.length shorter rest ?_ rfl
        rw [← List.singleton_append, ← List.append_assoc] at balanced
        exact balanced.behind _ rest (by rw [depth_append, level]; rfl)
      have deeper (more : List Token) (level : depth first = 0) :
          depth (first ++ .char ';' :: more) = depth more := by
        rw [depth_append, level, Int.zero_add, depth_cons]
        exact Int.zero_add _
      rw [List.splitOn_append_cons_self_of_not_mem absent, List.forall_mem_cons]
      constructor
      · rintro ⟨own, others⟩ before after same
        rcases semicolon_cases first rest before after absent same with rfl | ⟨more, rfl, behind⟩
        · exact own.balanced
        · rw [deeper more own.balanced]
          exact (later own.balanced).mp others more after behind
      · intro outside
        have level := outside first rest rfl
        refine ⟨balanced.front first _ level, (later level).mpr fun more after behind => ?_⟩
        rw [← deeper more level]
        exact outside _ after (by rw [behind, List.append_assoc, List.cons_append])
    · rw [List.splitOn_eq_singleton present]
      refine iff_of_true (fun piece member => List.mem_singleton.mp member ▸ balanced) ?_
      rintro before after rfl
      exact absurd (by simp) present

theorem mem_of_splitOn (tokens : List Token) :
    ∀ piece ∈ tokens.splitOn (.char ';'), ∀ token ∈ piece, token ∈ tokens := by
  induction tokens with
  | nil => simp
  | cons first rest ih =>
    have later : ∀ piece ∈ rest.splitOn (.char ';'), ∀ token ∈ piece, token ∈ first :: rest :=
      fun piece member token inside => List.mem_cons_of_mem first (ih piece member token inside)
    rw [List.splitOn_cons_eq_if_modifyHead]
    split
    · exact List.forall_mem_cons.mpr ⟨by simp, later⟩
    · cases pieces : rest.splitOn (.char ';') with
      | nil => simp
      | cons next others =>
        rw [pieces] at later
        obtain ⟨own, more⟩ := List.forall_mem_cons.mp later
        rw [List.modifyHead_cons]
        exact List.forall_mem_cons.mpr
          ⟨List.forall_mem_cons.mpr ⟨List.mem_cons_self, own⟩, more⟩

/-- Trimming and leaving out the empty ones makes no statement unbalanced and none balanced. -/
theorem closed_statements_iff (pieces : List (List Char))
    (settled : ∀ piece ∈ pieces, Settled piece) :
    (∀ statement ∈ ((pieces.map trim).filter fun piece => !piece.isEmpty).map String.ofList,
      Text.Closed statement.toList) ↔ ∀ piece ∈ pieces, Text.Closed piece := by
  constructor
  · intro all piece member
    rw [← (settled piece member).closed_trim_iff]
    by_cases empty : trim piece = []
    · rw [empty]
      exact .nil
    · have shown := all (String.ofList (trim piece)) <| List.mem_map_of_mem <|
        List.mem_filter.mpr ⟨List.mem_map_of_mem member, by simpa using empty⟩
      rwa [String.toList_ofList] at shown
  · intro all statement member
    obtain ⟨text, among, rfl⟩ := List.mem_map.mp member
    obtain ⟨piece, given, rfl⟩ := List.mem_map.mp (List.mem_filter.mp among).1
    rw [String.toList_ofList]
    exact (settled piece given).closed_trim_iff.mpr (all piece given)

namespace Reading

theorem stands {text rest : List Char} {tokens : List Token} (reading : Reading text tokens rest) :
    ∀ token ∈ tokens, ∃ after, token.Stands after := by
  induction reading with
  | stuck rest _ => simp
  | step token after tokens rest stands _ ih => exact List.forall_mem_cons.mpr ⟨⟨after, stands⟩, ih⟩

theorem nil : Reading [] [] [] :=
  .stuck [] fun token _ _ split => token.text_ne_nil (List.append_eq_nil_iff.mp split.symm).1

theorem read (text left rest : List Char) (token : Token) (tokens : List Token)
    (first : token? text = some (token, left)) (later : Reading left tokens rest) :
    Reading text (token :: tokens) rest := by
  obtain ⟨stands, rfl⟩ := token?_sound text token left first
  exact .step token left tokens rest stands later

end Reading

/-- A script is cut at every semicolon outside literals and comments, also at one in a group. Where
the groups balance outside literals and comments, its statements are closed exactly when no semicolon
stands in a group. -/
theorem statements_balanced_iff (script : String) (list : List String)
    (split : statements script = .ok list) :
    ∃ tokens, Reading script.toList tokens [] ∧
      list = (((cut tokens).map trim).filter fun piece => !piece.isEmpty).map String.ofList ∧
      (Balanced tokens →
        ((∀ statement ∈ list, Text.Closed statement.toList) ↔
          ∀ before after, tokens = before ++ .char ';' :: after → depth before = 0)) := by
  obtain ⟨tokens, reading, rfl⟩ := exists_tokens script list split
  refine ⟨tokens, reading, rfl, fun balanced => ?_⟩
  have kept (piece : List Token) (member : piece ∈ tokens.splitOn (.char ';')) :=
    closed_kept_iff fun token inside =>
      reading.stands token (mem_of_splitOn tokens piece member token inside)
  rw [closed_statements_iff _ (settled_cut _ _ _ reading), ← balanced.pieces_iff, cut,
    List.forall_mem_map]
  exact forall₂_congr kept

/-- A literal hides a semicolon in a group, and comments hide parentheses. -/
theorem statements_balanced_iff_hidden :
    statements "f(';' /* ) */); -- (;\nb" = .ok ["f(';'  )", "b"] ∧
      ∃ tokens, Reading "f(';' /* ) */); -- (;\nb".toList tokens [] ∧ Balanced tokens ∧
        ∀ before after, tokens = before ++ .char ';' :: after → depth before = 0 := by
  have split : statements "f(';' /* ) */); -- (;\nb" = .ok ["f(';'  )", "b"] := by cbv
  have read : Reading "f(';' /* ) */); -- (;\nb".toList
      [.char 'f', .char '(', .literal '\x27' [';', '\x27'], .char ' ', .blockComment [' ', ')', ' '],
        .char ')', .char ';', .char ' ', .lineComment [' ', '(', ';'], .char '\n', .char 'b'] [] := by
    iterate 11 refine .read _ _ _ _ _ rfl ?_
    exact .nil
  obtain ⟨tokens, reading, _, closed⟩ := statements_balanced_iff _ _ split
  obtain ⟨rfl, _⟩ := reading.unique _ _ read
  exact ⟨split, _, read, by decide, (closed (by decide)).mp (by decide)⟩

/-- A semicolon in a group ends a statement, so that neither part closes its groups. -/
theorem statements_in_group :
    statements "SELECT (a;b)" = .ok ["SELECT (a", "b)"] ∧
      ∃ tokens before after, Reading "SELECT (a;b)".toList tokens [] ∧ Balanced tokens ∧
        tokens = before ++ .char ';' :: after ∧ 0 < depth before ∧
        ¬ Text.Closed "SELECT (a".toList ∧ ¬ Text.Closed "b)".toList := by
  refine ⟨by cbv, _, "SELECT (a".toList.map .char, "b)".toList.map .char, ?_, ?_, rfl, ?_, ?_, ?_⟩
  · iterate 12 refine .read _ _ _ _ _ rfl ?_
    exact .nil
  · decide
  · decide
  · decide
  · decide

end Script

end SqlCompose
