import SqlCompose.History.Tree
import SqlCompose.Text.Cut

/-! Texts whose literals are closed can be put one after the other: each keeps its placeholders, and
so the parameters stay with the texts that they were given with. -/
namespace SqlCompose

namespace Text.Quoting

theorem placeholders_cons (state : Quoting) (char : Char) (rest : List Char) :
    state.placeholders (char :: rest) =
      (if state = .plain ∧ char = '?' then 1 else 0) + (state.step char).placeholders rest := by
  cases state with
  | plain =>
    by_cases slot : char = '?'
    · subst slot
      rw [placeholders, if_pos ⟨rfl, rfl⟩, Nat.add_comm]
      rfl
    · rw [if_neg (fun both => slot both.2), Nat.zero_add, placeholders]
      exact fun _ same => slot same
  | inside quote => simp [placeholders]
  | escaped quote => simp [placeholders]

theorem marks_cons (state : Quoting) (place : Nat) (char : Char) (rest : List Char) :
    state.marks place (char :: rest) =
      (if state = .plain ∧ char = '?' then [place] else []) ++
        (state.step char).marks (place + 1) rest := by
  cases state with
  | plain =>
    by_cases slot : char = '?'
    · subst slot
      rw [marks, if_pos ⟨rfl, rfl⟩]
      rfl
    · rw [if_neg (fun both => slot both.2), List.nil_append, marks]
      exact fun _ same => slot same
  | inside quote => simp [marks]
  | escaped quote => simp [marks]

theorem placeholders_append (state : Quoting) (first second : List Char) :
    state.placeholders (first ++ second) =
      state.placeholders first + (first.foldl step state).placeholders second := by
  induction first generalizing state with
  | nil => simp [placeholders]
  | cons char rest ih =>
    rw [List.cons_append, placeholders_cons, placeholders_cons, ih, List.foldl_cons, Nat.add_assoc]

theorem marks_append (state : Quoting) (place : Nat) (first second : List Char) :
    state.marks place (first ++ second) =
      state.marks place first ++ (first.foldl step state).marks (place + first.length) second := by
  induction first generalizing state place with
  | nil => simp [marks]
  | cons char rest ih =>
    have moved : place + 1 + rest.length = place + (rest.length + 1) := by omega
    rw [List.cons_append, marks_cons, marks_cons, ih, List.foldl_cons, List.append_assoc,
      List.length_cons, moved]

theorem marks_length (state : Quoting) (place : Nat) (text : List Char) :
    (state.marks place text).length = state.placeholders text := by
  induction text generalizing state place with
  | nil => cases state <;> rfl
  | cons char rest ih =>
    rw [marks_cons, placeholders_cons, List.length_append, ih]
    split <;> rfl

theorem marks_moved (state : Quoting) (place : Nat) (text : List Char) :
    state.marks place text = (state.marks 0 text).map (place + ·) := by
  induction text generalizing state place with
  | nil => cases state <;> rfl
  | cons char rest ih =>
    rw [marks_cons, marks_cons, ih, ih (state.step char) (0 + 1), List.map_append, List.map_map]
    congr 1
    · split <;> rfl
    · apply List.map_congr_left
      intro mark _
      simp only [Function.comp_apply]
      omega

end Text.Quoting

namespace Fragment

def Sound (fragment : Fragment) : Prop := Handed.Proper ⟨fragment.text, fragment.params.length⟩

def joined (pieces : List Fragment) : Fragment :=
  ⟨String.join (pieces.map text), pieces.flatMap params⟩

theorem joined_append (first second : List Fragment) :
    joined (first ++ second) =
      ⟨(joined first).text ++ (joined second).text,
        (joined first).params ++ (joined second).params⟩ := by
  simp [joined, String.join_append]

theorem Sound.append (first second : Fragment) (sound : first.Sound) (also : second.Sound) :
    Sound ⟨first.text ++ second.text, first.params ++ second.params⟩ := by
  have closed := sound.closed
  have head : Text.Quoting.plain.placeholders first.text.toList = first.params.length :=
    sound.counted
  have tail : Text.Quoting.plain.placeholders second.text.toList = second.params.length :=
    also.counted
  refine ⟨?_, ?_⟩
  · rw [String.toList_append, List.foldl_append, closed]
    exact also.closed
  · rw [String.toList_append, Text.Quoting.placeholders_append, closed, List.length_append, head,
      tail]

theorem joined_sound (pieces : List Fragment) (sound : ∀ piece ∈ pieces, piece.Sound) :
    (joined pieces).Sound := by
  induction pieces with
  | nil => exact ⟨rfl, rfl⟩
  | cons first rest ih =>
    have tail := ih fun piece member => sound piece (List.mem_cons_of_mem _ member)
    have head := sound first List.mem_cons_self
    have whole := Sound.append first (joined rest) head tail
    simpa [joined, String.join_cons] using whole

/-- The placeholders of a piece are found behind the text that precedes it, and as many further on
as the pieces before have placeholders. -/
theorem marks_joined (before after : List Fragment) (piece : Fragment)
    (sound : ∀ part ∈ before ++ piece :: after, part.Sound) (index : Nat)
    (bounded : index < piece.params.length) :
    ∃ place, (Text.Quoting.plain.marks 0 piece.text.toList)[index]? = some place ∧
      (Text.Quoting.plain.marks 0 (joined (before ++ piece :: after)).text.toList)[
        (joined before).params.length + index]? =
          some ((joined before).text.toList.length + place) := by
  have earlier := joined_sound before fun part member => sound part (List.mem_append_left _ member)
  have own : piece.Sound := sound piece (by simp)
  have inside : index < (Text.Quoting.plain.marks 0 piece.text.toList).length := by
    rw [Text.Quoting.marks_length]
    exact own.counted ▸ bounded
  have text : (joined (before ++ piece :: after)).text.toList =
      (joined before).text.toList ++ (piece.text.toList ++ (joined after).text.toList) := by
    simp [joined, String.join_append, String.join_cons, String.toList_append]
  refine ⟨_, List.getElem?_eq_getElem inside, ?_⟩
  rw [text, Text.Quoting.marks_append, earlier.closed, Text.Quoting.marks_append, own.closed]
  have skipped : (Text.Quoting.plain.marks 0 (joined before).text.toList).length =
      (joined before).params.length := by
    rw [Text.Quoting.marks_length]
    exact earlier.counted
  rw [List.getElem?_append_right (by omega), skipped, Nat.add_sub_cancel_left, Nat.zero_add]
  rw [Text.Quoting.marks_moved, List.getElem?_append_left (by simpa using inside),
    List.getElem?_map, List.getElem?_eq_getElem inside, Option.map_some]

theorem piece_of_param (pieces : List Fragment) (position : Nat)
    (bounded : position < (joined pieces).params.length) :
    ∃ before piece after index, pieces = before ++ piece :: after ∧
      index < piece.params.length ∧ position = (joined before).params.length + index := by
  induction pieces generalizing position with
  | nil => simp [joined] at bounded
  | cons first rest ih =>
    have whole : (joined (first :: rest)).params = first.params ++ (joined rest).params := rfl
    rw [whole, List.length_append] at bounded
    by_cases inside : position < first.params.length
    · exact ⟨[], first, rest, position, rfl, inside, by simp [joined]⟩
    · obtain ⟨before, piece, after, index, split, within, place⟩ :=
        ih (position - first.params.length) (by omega)
      refine ⟨first :: before, piece, after, index, by rw [split, List.cons_append], within, ?_⟩
      have grown : (joined (first :: before)).params = first.params ++ (joined before).params := rfl
      rw [grown, List.length_append]
      omega

end Fragment

/-- A text with parameters is put together from pieces that each have their own placeholders, and
the pieces that bind parameters are the fragments given. -/
def Aligned (text : String) (params : List Value) (bound : List Fragment) : Prop :=
  ∃ pieces : List Fragment, (∀ piece ∈ pieces, piece.Sound) ∧
    Fragment.joined pieces = ⟨text, params⟩ ∧
    (pieces.filter Fragment.binds).Perm (bound.filter Fragment.binds)

namespace Aligned

variable {text other : String} {params more : List Value} {bound rest : List Fragment}

theorem nil : Aligned "" [] [] := ⟨[], by simp, rfl, .refl _⟩

theorem of_unbound (bound : List Fragment) (unbound : bound.filter Fragment.binds = []) :
    Aligned "" [] bound :=
  ⟨[], by simp, rfl, by simp [unbound]⟩

theorem of_fragment (fragment : Fragment) (sound : fragment.Sound) :
    Aligned fragment.text fragment.params [fragment] :=
  ⟨[fragment], by simpa using sound, by simp [Fragment.joined], .refl _⟩

theorem of_plain (text : String) (proper : Handed.Proper ⟨text, 0⟩) : Aligned text [] [] :=
  ⟨[⟨text, []⟩], by simpa [Fragment.Sound] using proper, by simp [Fragment.joined], by
    simp [Fragment.binds]⟩

theorem append (first : Aligned text params bound) (second : Aligned other more rest) :
    Aligned (text ++ other) (params ++ more) (bound ++ rest) := by
  obtain ⟨pieces, sound, joined, permuted⟩ := first
  obtain ⟨others, also, after, repermuted⟩ := second
  refine ⟨pieces ++ others, ?_, ?_, ?_⟩
  · intro piece member
    rcases List.mem_append.mp member with left | right
    · exact sound piece left
    · exact also piece right
  · rw [Fragment.joined_append, joined, after]
  · rw [List.filter_append, List.filter_append]
    exact permuted.append repermuted

theorem perm (aligned : Aligned text params bound) (same : bound.Perm rest) :
    Aligned text params rest := by
  obtain ⟨pieces, sound, joined, permuted⟩ := aligned
  exact ⟨pieces, sound, joined, permuted.trans (same.filter _)⟩

theorem behind (aligned : Aligned text params bound) (lead : String)
    (proper : Handed.Proper ⟨lead, 0⟩) : Aligned (lead ++ text) params bound :=
  (of_plain lead proper).append aligned

theorem ahead (aligned : Aligned text params bound) (trail : String)
    (proper : Handed.Proper ⟨trail, 0⟩) : Aligned (text ++ trail) params bound := by
  have extended := aligned.append (of_plain trail proper)
  simpa using extended

theorem of_empty (aligned : Aligned "" params bound) :
    params = [] ∧ bound.filter Fragment.binds = [] := by
  obtain ⟨pieces, sound, joined, permuted⟩ := aligned
  have unbound : params = [] := by
    have counted := (Fragment.joined_sound pieces sound).counted
    rw [joined] at counted
    exact List.length_eq_zero_iff.mp counted.symm
  refine ⟨unbound, List.perm_nil.mp (permuted.symm.trans ?_)⟩
  have empty : pieces.flatMap Fragment.params = [] := by
    rw [← unbound]
    exact congrArg Fragment.params joined
  have none : pieces.filter Fragment.binds = [] := by
    apply List.filter_eq_nil_iff.mpr
    intro piece member
    simp [Fragment.binds, List.flatMap_eq_nil_iff.mp empty piece member]
  rw [none]

theorem proper_of_unbound (aligned : Aligned text params []) : Handed.Proper ⟨text, 0⟩ := by
  obtain ⟨pieces, sound, joined, permuted⟩ := aligned
  have whole := Fragment.joined_sound pieces sound
  have none : pieces.filter Fragment.binds = [] := List.perm_nil.mp permuted
  have empty : (Fragment.joined pieces).params = [] := by
    apply List.flatMap_eq_nil_iff.mpr
    intro piece member
    have unbound := List.filter_eq_nil_iff.mp none piece member
    simpa [Fragment.binds] using unbound
  rw [Fragment.Sound, empty, joined] at whole
  exact whole

end Aligned

end SqlCompose
