import SqlCompose.Proofs.Agreement
import SqlCompose.Proofs.Numbering
import SqlCompose.Proofs.Skipping

/-! The scan of placeholders goes over the bytes of a text without a slip of its own, and marks the
placeholders at their places, from the first to the last. -/
namespace SqlCompose

namespace Text

namespace LiteralsClosed

theorem foldl (text : List Char) (closed : LiteralsClosed text) :
    text.foldl Quoting.step .plain = .plain := by
  induction closed with
  | nil => rfl
  | literal quote part rest quoted ends _ ih =>
    have passed := congrArg Nesting.quoting (Atom.literal quote part quoted ends).pass
    rw [Nesting.quoting_foldl] at passed
    rw [← List.cons_append, List.foldl_append, passed, ih]
  | plain char rest unquoted _ ih => rw [List.foldl_cons, Quoting.step_plain char unquoted, ih]

theorem of_foldl (text : List Char) (literals : text.foldl Quoting.step .plain = .plain) :
    LiteralsClosed text := by
  -- Behind a literal the text goes on with what the literal leaves, not with its own tail.
  induction length : text.length using Nat.strongRecOn generalizing text with
  | ind length ih =>
    subst length
    cases text with
    | nil => exact .nil
    | cons char rest =>
      rw [List.foldl_cons] at literals
      cases quoted : isQuote char with
      | false =>
        rw [Quoting.step_plain char quoted] at literals
        exact .plain char rest quoted (ih rest.length (by simp) rest literals rfl)
      | true =>
        have opened : Quoting.plain.step char = .inside char := by simp [Quoting.step, quoted]
        rw [opened] at literals
        cases read : literal? char rest with
        | none => exact absurd literals (foldl_step_of_unread _ rest (by simp) read)
        | some passed =>
          obtain ⟨part, left⟩ := passed
          have shorter := literal?_shorter char rest part left read
          obtain ⟨ends, rfl⟩ := (literal?_eq_some_iff char quoted rest part left).mp read
          have closing := foldl (char :: (part ++ [])) (.literal char part [] quoted ends .nil)
          rw [List.append_nil, List.foldl_cons, opened] at closing
          rw [List.foldl_append, closing] at literals
          refine .literal char part left quoted ends (ih left.length ?_ left literals rfl)
          rw [List.length_cons]
          omega

end LiteralsClosed

instance (text : List Char) : Decidable (LiteralsClosed text) :=
  decidable_of_iff (text.foldl Quoting.step .plain = .plain)
    ⟨LiteralsClosed.of_foldl text, LiteralsClosed.foldl text⟩

theorem Unmarked.literalsClosed (text : List Char) (unmarked : Unmarked text) :
    LiteralsClosed text := by
  induction unmarked with
  | nil => exact .nil
  | literal quote part rest quoted ends _ ih => exact .literal quote part rest quoted ends ih
  | plain char rest unquoted _ _ ih => exact .plain char rest unquoted ih

theorem Quoting.marks_le (state : Quoting) (place : Nat) (text : List Char) :
    ∀ mark ∈ state.marks place text, mark ≤ place + text.length := by
  induction text generalizing state place with
  | nil => cases state <;> simp [marks]
  | cons char rest ih =>
    intro mark member
    rw [marks_cons, List.mem_append] at member
    rw [List.length_cons]
    rcases member with first | later
    · split at first
      · rw [List.mem_singleton.mp first]
        omega
      · cases first
    · have bounded := ih _ _ mark later
      omega

def markPlaces (text : List Char) : List Nat :=
  (Quoting.plain.marks 0 text).map fun index => byteSize (text.take index)

theorem length_markPlaces (text : List Char) :
    (markPlaces text).length = Quoting.plain.placeholders text := by
  rw [markPlaces, List.length_map, Quoting.marks_length]

theorem markPlaces_append (first second : List Char) (closed : LiteralsClosed first) :
    markPlaces (first ++ second) =
      markPlaces first ++ (markPlaces second).map (byteSize first + ·) := by
  rw [markPlaces, Quoting.marks_append, closed.foldl, List.map_append, markPlaces, markPlaces,
    List.map_map]
  congr 1
  · apply List.map_congr_left
    intro index member
    have within := Quoting.marks_le .plain 0 first index member
    rw [List.take_append_of_le_length (by omega)]
  · rw [Quoting.marks_moved, List.map_map, Nat.zero_add]
    apply List.map_congr_left
    intro index _
    rw [Function.comp_apply, Function.comp_apply, List.take_length_add_append, byteSize_append]

theorem markPlaces_of_pieces (text : List Char) (single : Quoting.plain.pieces text = (text, [])) :
    markPlaces text = [] := by
  apply List.eq_nil_of_length_eq_zero
  rw [length_markPlaces, Quoting.placeholders_pieces, single]
  rfl

theorem Unmarked.markPlaces (text : List Char) (unmarked : Unmarked text) :
    Text.markPlaces text = [] := by
  have pieces := unmarked.pieces text []
  rw [List.append_nil] at pieces
  apply markPlaces_of_pieces
  rw [pieces, Quoting.pieces, List.append_nil]

theorem Unmarked.markPlaces_behind (front moved left : List Char) (unmarked : Unmarked moved) :
    (Text.markPlaces (moved ++ left)).map (byteSize front + ·) =
      (Text.markPlaces left).map (byteSize (front ++ moved) + ·) := by
  rw [markPlaces_append moved left unmarked.literalsClosed, unmarked.markPlaces, List.nil_append,
    List.map_map, byteSize_append]
  apply List.map_congr_left
  intro place _
  rw [Function.comp_apply, Nat.add_assoc]

theorem markPlaces_mark (front rest : List Char) :
    (markPlaces ('?' :: rest)).map (byteSize front + ·) =
      byteSize front :: (markPlaces rest).map (byteSize (front ++ ['?']) + ·) := by
  have closed : LiteralsClosed ['?'] := .plain '?' [] (by decide) .nil
  have own : markPlaces ['?'] = [0] := rfl
  rw [← List.singleton_append, markPlaces_append _ rest closed, own, List.map_append, List.map_map,
    byteSize_append]
  refine congrArg (byteSize front :: ·) (List.map_congr_left fun place _ => ?_)
  rw [Function.comp_apply, Nat.add_assoc]

end Text

open Text

namespace Bytewise

theorem placeholdersTurn_eq {State : Type} (text : List Char)
    (mark : Nat → State → Checked State) (place : Nat) (state : State) (byte : Char)
    (read : byteAt text place = .ok byte) :
    placeholdersTurn text mark place state =
      if byte = '?' then (mark place state).map (.on (place + 1))
      else if isQuote byte then
        (skipLiteral text place).map fun
          | none => .done state
          | some next => .on next state
      else .ok (.on (place + 1) state) := by
  rw [placeholdersTurn, read]
  simp only [bind, Except.bind]
  refine if_congr Iff.rfl ?_ (if_congr Iff.rfl ?_ rfl)
  · exact bind_eq_map _ _ _ fun _ => rfl
  · exact bind_eq_map _ _ _ fun passed => by cases passed <;> rfl

variable {State : Type} (text : List Char) (mark : Nat → State → Checked State)

/-- From a place on the scan marks the placeholders of what is ahead. -/
def Scans (place : Nat) (front rest : List Char) : Prop :=
  ∀ state, scan (byteSize text) (placeholdersTurn text mark) (fun _ state => return state) place
      state =
    ((markPlaces rest).map (byteSize front + ·)).foldlM (fun state place => mark place state) state

namespace Scans

theorem passed (place next : Nat) (front moved left : List Char) (inside : place < byteSize text)
    (unmarked : Unmarked moved) (forward : place < next)
    (went : ∀ state, placeholdersTurn text mark place state = .ok (.on next state))
    (ahead : Scans text mark next (front ++ moved) left) :
    Scans text mark place front (moved ++ left) := by
  intro state
  rw [scan_on _ _ _ place next state state inside (went state) forward, ahead state,
    unmarked.markPlaces_behind]

theorem marked (front left : List Char) (inside : byteSize front < byteSize text)
    (read : byteAt text (byteSize front) = .ok '?')
    (ahead : Scans text mark (byteSize front + 1) (front ++ ['?']) left) :
    Scans text mark (byteSize front) front ('?' :: left) := by
  intro state
  rw [scan, if_pos inside, placeholdersTurn_eq text mark _ state '?' read, if_pos rfl,
    markPlaces_mark, List.foldlM_cons]
  cases mark (byteSize front) state with
  | error slip => rfl
  | ok later => exact (if_pos (Nat.lt_succ_self _)).trans (ahead later)

theorem literal (front left : List Char) (quote : Char) (split : text = front ++ quote :: left)
    (inside : byteSize front < byteSize text) (quoted : isQuote quote = true)
    (read : byteAt text (byteSize front) = .ok quote)
    (ahead : ∀ part rest, left = part ++ rest →
      Scans text mark (byteSize (front ++ quote :: part)) (front ++ quote :: part) rest) :
    Scans text mark (byteSize front) front (quote :: left) := by
  have other : quote ≠ '?' := by
    rintro rfl
    exact absurd quoted (by decide)
  have skipped := skipLiteral_eq front left quote quoted
  rw [← split] at skipped
  have turned (state : State) := placeholdersTurn_eq text mark _ state quote read
  simp only [if_neg other, if_pos quoted, skipped] at turned
  cases literal : literal? quote left with
  | none =>
    intro state
    rw [literal] at turned
    rw [scan, if_pos inside, turned,
      markPlaces_of_pieces _ (LeftOpen.of_unread quote left quoted literal).pieces]
    rfl
  | some found =>
    obtain ⟨part, rest⟩ := found
    obtain ⟨same, _⟩ := readUntil_append _ _ _ _ _ literal
    have whole := Unmarked.of_read quote left part rest quoted literal
    rw [literal] at turned
    rw [same, ← List.cons_append]
    exact passed text mark _ _ front (quote :: part) rest inside whole
      (byteSize_lt_behind front quote part) turned (ahead part rest same)

theorem of_at (place : Nat) (front rest more : List Char) (at_ : At text place front rest more) :
    Scans text mark place front rest := by
  induction left : byteSize text - place using Nat.strongRecOn
    generalizing place front rest more with
  | ind left ih =>
    subst left
    by_cases inside : place < byteSize text
    · rcases at_.step inside with
        ⟨char, left, rfl, rfl, narrow, rfl, read, next⟩ |
          ⟨byte, moved, left, later, read, wide, rfl, each, _, next⟩
      · by_cases slot : char = '?'
        · subst slot
          exact marked text mark front left inside read (ih _ (by omega) _ _ _ _ next rfl)
        have turned (state : State) := placeholdersTurn_eq text mark _ state char read
        cases quoted : isQuote char with
        | true =>
          refine literal text mark front left char at_.split inside quoted read ?_
          intro part rest split
          have forward := byteSize_lt_behind front char part
          refine ih _ (by omega) _ _ rest [] ?_ rfl
          rw [at_.split, split, ← List.cons_append, ← List.append_assoc]
          exact .between _ rest
        | false =>
          simp only [if_neg slot, quoted, Bool.false_eq_true, if_false] at turned
          exact passed text mark _ _ front [char] left inside (.plain char [] quoted slot .nil)
            (Nat.lt_succ_self _) turned (ih _ (by omega) _ _ _ _ next rfl)
      · obtain ⟨unquoted, _⟩ := plain_of_isWide byte wide
        have other := ne_of_isWide byte '?' wide (by decide)
        have turned (state : State) := placeholdersTurn_eq text mark place state byte read
        simp only [if_neg other, unquoted, Bool.false_eq_true, if_false] at turned
        refine passed text mark _ _ front moved left inside (.of_forall moved ?_)
          (Nat.lt_succ_self _) turned (ih _ (by omega) _ _ _ _ next rfl)
        intro char member
        have high := each char member
        exact ⟨(plain_of_isWide char high).1, ne_of_isWide char '?' high (by decide)⟩
    · obtain ⟨rfl, rfl⟩ := at_.ended (by omega)
      intro state
      rw [scan, if_neg inside]
      rfl

end Scans

/-- The scan marks the placeholders of a text at their places, from the first to the last. -/
theorem scanPlaceholders_eq (state : State) :
    scanPlaceholders text mark state =
      (markPlaces text).foldlM (fun state place => mark place state) state := by
  rw [scanPlaceholders, Scans.of_at text mark 0 [] text [] (.start text) state]
  simp [byteSize]

end Bytewise

end SqlCompose
