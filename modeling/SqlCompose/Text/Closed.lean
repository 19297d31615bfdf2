import Mathlib.Data.List.Infix
import SqlCompose.Text.Group

/-! Closed texts: their literals end and their groups balance. -/
namespace SqlCompose.Text

namespace Quoting

def turn (state : Quoting) (char : Char) : Int :=
  if state = .plain ∧ char = '(' then 1 else if state = .plain ∧ char = ')' then -1 else 0

def depth : Quoting → List Char → Int
  | _, [] => 0
  | state, char :: rest => state.turn char + depth (state.step char) rest

theorem depth_append (state : Quoting) (front back : List Char) :
    state.depth (front ++ back) = state.depth front + (front.foldl step state).depth back := by
  induction front generalizing state with
  | nil => simp [depth]
  | cons char rest ih => rw [List.cons_append, depth, ih, depth, List.foldl_cons, Int.add_assoc]

theorem depth_ordinary (char : Char) (rest : List Char) (unquoted : isQuote char = false)
    (ungrouped : char ≠ '(' ∧ char ≠ ')') : plain.depth (char :: rest) = plain.depth rest := by
  simp [depth, turn, step, unquoted, ungrouped]

end Quoting

/-- One more character of a text that is read to its end, whatever groups are open in it. A
parenthesis that closes no group is passed over. -/
def Nesting.pass (state : Nesting) (char : Char) : Nesting :=
  ⟨(state.depth + state.quoting.turn char).toNat, state.quoting.step char⟩

/-- Every literal ends, no group is closed that was not opened, and every group is closed. -/
structure Closed (text : List Char) : Prop where
  literals : text.foldl Quoting.step .plain = .plain
  nonnegative : ∀ front, front <+: text → 0 ≤ Quoting.plain.depth front
  balanced : Quoting.plain.depth text = 0

instance (text : List Char) : Decidable (Closed text) :=
  decidable_of_iff (text.foldl Quoting.step .plain = .plain ∧
      (∀ front ∈ text.inits, 0 ≤ Quoting.plain.depth front) ∧ Quoting.plain.depth text = 0)
    ⟨fun all => ⟨all.1, fun front inside => all.2.1 front ((List.mem_inits front text).mpr inside),
        all.2.2⟩,
      fun closed => ⟨closed.literals,
        fun front member => closed.nonnegative front ((List.mem_inits front text).mp member),
        closed.balanced⟩⟩

theorem prefix_append_cases (front first second : List Char) (inside : front <+: first ++ second) :
    front <+: first ∨ ∃ more, more <+: second ∧ front = first ++ more := by
  rcases List.prefix_or_prefix_of_prefix inside (List.prefix_append first second) with early | late
  · exact .inl early
  · obtain ⟨more, rfl⟩ := late
    exact .inr ⟨more, (List.prefix_append_right_inj first).mp inside, rfl⟩

theorem Closed.nil : Closed [] := by
  refine ⟨rfl, fun front inside => ?_, rfl⟩
  rw [List.prefix_nil.mp inside]
  exact Int.le_refl 0

/-- A closed text takes the place of a character that is neither a quote nor a parenthesis, wherever
that stands outside literals. -/
theorem Closed.fill (front back filling : List Char) (char : Char)
    (closed : Closed (front ++ char :: back)) (plain : front.foldl Quoting.step .plain = .plain)
    (unquoted : isQuote char = false) (ungrouped : char ≠ '(' ∧ char ≠ ')')
    (inner : Closed filling) : Closed (front ++ filling ++ back) := by
  have slot : Quoting.plain.step char = .plain := by simp [Quoting.step, unquoted]
  have skipped (more : List Char) := Quoting.depth_ordinary char more unquoted ungrouped
  have filled : (front ++ filling).foldl Quoting.step .plain = .plain := by
    rw [List.foldl_append, plain, inner.literals]
  have before : Quoting.plain.depth (front ++ filling) = Quoting.plain.depth front := by
    rw [Quoting.depth_append, plain, inner.balanced, Int.add_zero]
  refine ⟨?_, ?_, ?_⟩
  · have literals := closed.literals
    rw [List.foldl_append, plain, List.foldl_cons, slot] at literals
    rw [List.foldl_append, filled, literals]
  -- A beginning of the whole ends before the filling, in it or behind it.
  · intro part inside
    rcases prefix_append_cases part _ back inside with early | ⟨more, behind, rfl⟩
    · rcases prefix_append_cases part front filling early with outside | ⟨more, within, rfl⟩
      · exact closed.nonnegative part (outside.trans (List.prefix_append _ _))
      · have opened := closed.nonnegative front (List.prefix_append _ _)
        have nested := inner.nonnegative more within
        rw [Quoting.depth_append, plain]
        omega
    · obtain ⟨rest, rfl⟩ := behind
      have opened := closed.nonnegative (front ++ char :: more) ⟨rest, by simp⟩
      rw [Quoting.depth_append, plain, skipped] at opened
      rwa [Quoting.depth_append, before, filled]
  · have balanced := closed.balanced
    rw [Quoting.depth_append, plain, skipped] at balanced
    rw [Quoting.depth_append, before, filled, balanced]

theorem Closed.of_ordinary (text : List Char)
    (ordinary : ∀ char ∈ text, isQuote char = false ∧ char ≠ '(' ∧ char ≠ ')') : Closed text := by
  induction text with
  | nil => exact .nil
  | cons char rest ih =>
    obtain ⟨unquoted, ungrouped⟩ := ordinary char List.mem_cons_self
    obtain ⟨literals, nonnegative, balanced⟩ := ih fun other member =>
      ordinary other (List.mem_cons_of_mem _ member)
    have stays : Quoting.plain.step char = .plain := by simp [Quoting.step, unquoted]
    have skipped (more : List Char) := Quoting.depth_ordinary char more unquoted ungrouped
    refine ⟨by rw [List.foldl_cons, stays, literals], ?_, by rw [skipped, balanced]⟩
    intro front inside
    rcases List.prefix_cons_iff.mp inside with rfl | ⟨more, rfl, within⟩
    · exact Int.le_refl 0
    · rw [skipped]
      exact nonnegative more within

theorem Closed.append (first second : List Char) (closed : Closed first) (also : Closed second) :
    Closed (first ++ second) := by
  refine ⟨?_, ?_, ?_⟩
  · rw [List.foldl_append, closed.literals, also.literals]
  · intro front inside
    rcases prefix_append_cases front first second inside with early | ⟨more, behind, rfl⟩
    · exact closed.nonnegative front early
    · rw [Quoting.depth_append, closed.balanced, closed.literals, Int.zero_add]
      exact also.nonnegative more behind
  · rw [Quoting.depth_append, closed.balanced, closed.literals, also.balanced]
    rfl

theorem Closed.enclosed (text : List Char) (closed : Closed text) :
    Closed ('(' :: text ++ [')']) := by
  have filled := Closed.fill ['('] [')'] text '?' (by decide) (by decide) (by decide) (by decide)
    closed
  simpa using filled

theorem Nesting.within_of_open (state : Nesting) (char : Char)
    (opened : 0 ≤ state.depth + state.quoting.turn char) :
    state.within char =
      some ⟨(state.depth + state.quoting.turn char).toNat, state.quoting.step char⟩ := by
  obtain ⟨depth, quoting⟩ := state
  cases quoting with
  | plain =>
    by_cases opening : char = '('
    · subst opening
      rfl
    · by_cases closing : char = ')'
      · subst closing
        cases depth with
        | zero => exact absurd opened (by decide)
        | succ depth =>
          have less : ((depth + 1 : Nat) + (-1) : Int).toNat = depth := by omega
          exact congrArg (fun depth => some (Nesting.mk depth .plain)) less.symm
      · simp [Nesting.within, Quoting.turn, opening, closing]
  | inside quote => simp [Nesting.within, Quoting.turn]
  | escaped quote => simp [Nesting.within, Quoting.turn]

theorem readUntil_within (state : Nesting) (text rest : List Char)
    (opened : ∀ front, front <+: text → 0 ≤ state.depth + state.quoting.depth front) :
    readUntil Nesting.within state (text ++ rest) =
      (readUntil Nesting.within ⟨(state.depth + state.quoting.depth text).toNat,
        text.foldl Quoting.step state.quoting⟩ rest).map
          fun (part, left) => (text ++ part, left) := by
  induction text generalizing state with
  | nil => simp [Quoting.depth]
  | cons char text ih =>
    have next := opened [char] ⟨text, rfl⟩
    simp only [Quoting.depth, Int.add_zero] at next
    rw [List.cons_append, readUntil, state.within_of_open char next]
    have later := ih ⟨(state.depth + state.quoting.turn char).toNat, state.quoting.step char⟩ ?_
    · simp only [Int.toNat_of_nonneg next, Int.add_assoc] at later
      simp only [later, Quoting.depth, List.foldl_cons, Option.map_map]
      rfl
    · intro front inside
      obtain ⟨more, rfl⟩ := inside
      have whole := opened (char :: front) ⟨more, rfl⟩
      simp only [Quoting.depth] at whole
      simp only [Int.toNat_of_nonneg next]
      omega

/-- A closed text in parentheses is read as one group, whatever follows. -/
theorem group?_of_closed (text rest : List Char) (closed : Closed text) :
    group? (text ++ ')' :: rest) = some (text ++ [')'], rest) := by
  have read := readUntil_within ⟨0, .plain⟩ text (')' :: rest) fun front inside => by
    simpa using closed.nonnegative front inside
  simp only [closed.literals, closed.balanced] at read
  rw [group?, read]
  rfl

end SqlCompose.Text
