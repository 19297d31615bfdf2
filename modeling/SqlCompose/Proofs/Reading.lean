import SqlCompose.Proofs.Scanning
import SqlCompose.Text.Group

/-! Literals and groups are read as they are defined, and every text can be read in one way. -/
namespace SqlCompose.Text

theorem unescaped_of_isQuote (quote : Char) (quoted : isQuote quote = true) : quote ≠ '\x5c' := by
  intro backslash
  rw [backslash] at quoted
  exact absurd quoted (by decide)

theorem literalEnd_of_readUntil (quote : Char) (text part left : List Char) :
    (readUntil Quoting.within (.inside quote) text = some (part, left) → LiteralEnd quote part) ∧
    (readUntil Quoting.within (.escaped quote) text = some (part, left) →
      ∃ char rest, part = char :: rest ∧ LiteralEnd quote rest) := by
  induction text generalizing part with
  | nil => simp [readUntil]
  | cons char rest ih =>
    constructor
    · intro read
      rw [readUntil_cons_eq_some_iff, within_inside] at read
      rcases read with ⟨stopped, rfl, _⟩ | ⟨next, inner, stepped, read, rfl⟩
      · split at stopped
        · cases stopped
        · split at stopped
          · rename_i closing
            rw [closing]
            exact .close
          · cases stopped
      · split at stepped
        · rename_i backslash
          cases stepped
          obtain ⟨escaped, more, rfl, ends⟩ := (ih inner).2 read
          rw [backslash]
          exact .escape escaped more ends
        · rename_i unescaped
          split at stepped
          · cases stepped
          · rename_i inside
            cases stepped
            exact .plain char inner unescaped inside ((ih inner).1 read)
    · intro read
      rw [readUntil_cons_eq_some_iff] at read
      rcases read with ⟨stopped, _⟩ | ⟨next, inner, stepped, read, rfl⟩
      · cases stopped
      · cases stepped
        exact ⟨char, inner, rfl, (ih inner).1 read⟩

theorem literal?_eq_some_iff (quote : Char) (quoted : isQuote quote = true)
    (text part left : List Char) :
    literal? quote text = some (part, left) ↔ LiteralEnd quote part ∧ text = part ++ left := by
  constructor
  · intro read
    exact ⟨(literalEnd_of_readUntil quote text part left).1 read,
      (readUntil_append _ _ _ _ _ read).1⟩
  · intro both
    obtain ⟨ends, rfl⟩ := both
    have unescaped := unescaped_of_isQuote quote quoted
    unfold literal?
    induction ends with
    | close => simp [readUntil, within_inside, unescaped]
    | escape char rest _ ih =>
      have read := ih
      simp only [List.cons_append, readUntil, within_inside, if_true]
      have escaped : Quoting.within (.escaped quote) char = some (.inside quote) := rfl
      rw [escaped]
      simp [read]
    | plain char rest ordinary inside _ ih =>
      simp only [List.cons_append, readUntil, within_inside, ordinary, inside, if_false, ih]
      rfl

theorem readUntil_embed {First Second : Type} (first : First → Char → Option First)
    (second : Second → Char → Option Second) (embed : First → Second) (after : Second)
    (Live : First → Prop)
    (same : ∀ state char, Live state →
      second (embed state) char = some ((first state char).elim after embed))
    (lives : ∀ state char next, Live state → first state char = some next → Live next)
    (state : First) (live : Live state) (text : List Char) :
    readUntil second (embed state) text =
      (readUntil first state text).bind fun (part, left) =>
        (readUntil second after left).map fun (inner, more) => (part ++ inner, more) := by
  induction text generalizing state with
  | nil => rfl
  | cons char rest ih =>
    rw [readUntil, readUntil, same state char live]
    cases stepped : first state char with
    | none => rfl
    | some next =>
      simp only [Option.elim_some, ih next (lives state char next live stepped), Option.map_bind]
      cases readUntil first next rest with
      | none => rfl
      | some read =>
        simp only [Option.map_some, Option.bind_some, Function.comp_apply, Option.map_map]
        rfl

theorem readUntil_in_literal (depth : Nat) (quote : Char) (text : List Char) :
    readUntil Nesting.within ⟨depth, .inside quote⟩ text =
      (literal? quote text).bind fun (part, left) =>
        (readUntil Nesting.within ⟨depth, .plain⟩ left).map fun (inner, more) =>
          (part ++ inner, more) := by
  refine readUntil_embed Quoting.within Nesting.within (fun quoting => ⟨depth, quoting⟩)
    ⟨depth, .plain⟩ (· ≠ .plain) ?_ ?_ (.inside quote) (by simp) text
  · intro state char live
    cases state with
    | plain => exact absurd rfl live
    | inside quote =>
      simp only [Nesting.within, Quoting.within]
      cases Quoting.step (.inside quote) char <;> rfl
    | escaped quote => rfl
  · intro state char next _ stepped same
    rw [same, Quoting.within] at stepped
    split at stepped
    · cases stepped
    · rename_i _ live
      exact live (Option.some.inj stepped)

theorem readUntil_group (depth : Nat) (char : Char) (rest : List Char) :
    readUntil Nesting.within ⟨depth, .plain⟩ (char :: rest) =
      if char = '(' then
        (readUntil Nesting.within ⟨depth + 1, .plain⟩ rest).map fun (part, left) =>
          (char :: part, left)
      else if char = ')' then
        match depth with
        | 0 => some ([char], rest)
        | depth + 1 => (readUntil Nesting.within ⟨depth, .plain⟩ rest).map fun (part, left) =>
          (char :: part, left)
      else if isQuote char then
        (literal? char rest).bind fun (part, left) =>
          (readUntil Nesting.within ⟨depth, .plain⟩ left).map fun (inner, more) =>
            (char :: (part ++ inner), more)
      else (readUntil Nesting.within ⟨depth, .plain⟩ rest).map fun (part, left) =>
        (char :: part, left) := by
  rw [readUntil]
  by_cases opening : char = '('
  · subst opening
    rfl
  by_cases closing : char = ')'
  · subst closing
    cases depth <;> rfl
  rw [if_neg opening, if_neg closing]
  have stepped : Nesting.within ⟨depth, .plain⟩ char = some ⟨depth, Quoting.plain.step char⟩ := by
    simp [Nesting.within, opening, closing]
  rw [stepped]
  cases quoted : isQuote char with
  | false => simp [Quoting.step, quoted]
  | true =>
    simp only [Quoting.step, quoted, if_true, readUntil_in_literal, Option.map_bind]
    simp [Function.comp_def]

theorem readUntil_in_group (depth : Nat) (text : List Char) :
    readUntil Nesting.within ⟨depth + 1, .plain⟩ text =
      (group? text).bind fun (part, left) =>
        (readUntil Nesting.within ⟨depth, .plain⟩ left).map fun (inner, more) =>
          (part ++ inner, more) := by
  have shifted := readUntil_embed Nesting.within Nesting.within
    (fun state => ⟨state.depth + (depth + 1), state.quoting⟩) ⟨depth, .plain⟩ (fun _ => True) ?_
    (fun _ _ _ _ _ => trivial) ⟨0, .plain⟩ trivial text
  · simpa [group?] using shifted
  · intro state char _
    obtain ⟨inner, quoting⟩ := state
    cases quoting with
    | plain =>
      by_cases opening : char = '('
      · subst opening
        simp only [Nesting.within, Option.elim_some, Option.some.injEq, Nesting.mk.injEq, and_true]
        omega
      · by_cases closing : char = ')'
        · subst closing
          cases inner with
          | zero => simp [Nesting.within]
          | succ inner =>
            have counted : inner + 1 + (depth + 1) = inner + (depth + 1) + 1 := by omega
            simp [Nesting.within, counted]
        · simp [Nesting.within, opening, closing]
    | inside quote => simp [Nesting.within]
    | escaped quote => simp [Nesting.within]

theorem group?_cons (char : Char) (rest : List Char) :
    group? (char :: rest) =
      if char = ')' then some ([char], rest)
      else if char = '(' then
        (group? rest).bind fun (part, left) =>
          (group? left).map fun (inner, more) => (char :: (part ++ inner), more)
      else if isQuote char then
        (literal? char rest).bind fun (part, left) =>
          (group? left).map fun (inner, more) => (char :: (part ++ inner), more)
      else (group? rest).map fun (part, left) => (char :: part, left) := by
  unfold group?
  rw [readUntil_group]
  by_cases closing : char = ')'
  · subst closing
    rfl
  by_cases opening : char = '('
  · subst opening
    have inside := readUntil_in_group 0 rest
    simp only [Nat.zero_add, inside, group?, Option.map_bind]
    simp [Function.comp_def]
  · rw [if_neg opening, if_neg closing, if_neg closing, if_neg opening]

theorem groupEnd_of_group? (text part left : List Char) (read : group? text = some (part, left)) :
    GroupEnd part := by
  -- What is left behind an inner group is not a tail of the text, only shorter.
  induction length : text.length using Nat.strongRecOn generalizing text part left with
  | ind length ih =>
    subst length
    cases text with
    | nil => cases read
    | cons char rest =>
      rw [group?_cons] at read
      split at read
      · rename_i closing
        cases read
        rw [closing]
        exact .close
      · split at read
        · rename_i opening
          simp only [Option.bind_eq_some_iff, Option.map_eq_some_iff, Prod.exists,
            Prod.mk.injEq] at read
          obtain ⟨inner, between, first, ends, after, second, rfl, rfl⟩ := read
          have shorter := group?_shorter rest inner between first
          rw [opening]
          exact .group inner ends (ih _ (by simp) rest inner between first rfl)
            (ih _ (by simp; omega) between ends after second rfl)
        · split at read
          · rename_i quoted
            simp only [Option.bind_eq_some_iff, Option.map_eq_some_iff, Prod.exists,
              Prod.mk.injEq] at read
            obtain ⟨inner, between, first, ends, after, second, rfl, rfl⟩ := read
            have shorter := literal?_shorter char rest inner between first
            exact .literal char inner ends quoted
              ((literal?_eq_some_iff char quoted rest inner between).mp first).1
              (ih _ (by simp; omega) between ends after second rfl)
          · rename_i closing opening unquoted
            simp only [Option.map_eq_some_iff, Prod.exists, Prod.mk.injEq] at read
            obtain ⟨ends, after, tail, rfl, rfl⟩ := read
            exact .plain char ends (by simpa using unquoted) ⟨opening, closing⟩
              (ih _ (by simp) rest ends after tail rfl)

theorem group?_eq_some_iff (text part left : List Char) :
    group? text = some (part, left) ↔ GroupEnd part ∧ text = part ++ left := by
  constructor
  · intro read
    exact ⟨groupEnd_of_group? text part left read, (readUntil_append _ _ _ _ _ read).1⟩
  · intro both
    obtain ⟨ends, rfl⟩ := both
    induction ends generalizing left with
    | close => rfl
    | literal quote part rest quoted literal _ ih =>
      have read := (literal?_eq_some_iff quote quoted _ part (rest ++ left)).mpr ⟨literal, rfl⟩
      have apart : quote ≠ ')' ∧ quote ≠ '(' := by
        constructor <;> rintro rfl <;> exact absurd quoted (by decide)
      rw [List.cons_append, group?_cons, if_neg apart.1, if_neg apart.2, if_pos quoted,
        List.append_assoc, read]
      simp [ih left]
    | group part rest _ _ inner after =>
      rw [List.cons_append, group?_cons, if_neg (by decide), if_pos rfl, List.append_assoc,
        inner (rest ++ left)]
      simp [after left]
    | plain char rest unquoted ungrouped _ ih =>
      rw [List.cons_append, group?_cons, if_neg ungrouped.2, if_neg ungrouped.1,
        if_neg (by simp [unquoted]), ih left]
      rfl

def atom? : List Char → Option (List Char × List Char)
  | [] => none
  | char :: rest =>
    if isQuote char then (literal? char rest).map fun (part, left) => (char :: part, left)
    else if char = '(' then (group? rest).map fun (part, left) => (char :: part, left)
    else some ([char], rest)

theorem atom?_eq_some_iff (text atom left : List Char) :
    atom? text = some (atom, left) ↔ Atom atom ∧ text = atom ++ left := by
  constructor
  · intro read
    cases text with
    | nil => cases read
    | cons char rest =>
      rw [atom?] at read
      split at read
      · rename_i quoted
        obtain ⟨⟨part, after⟩, inside, same⟩ := Option.map_eq_some_iff.mp read
        cases same
        obtain ⟨ends, rfl⟩ := (literal?_eq_some_iff char quoted rest part left).mp inside
        exact ⟨.literal char part quoted ends, rfl⟩
      · rename_i unquoted
        split at read
        · rename_i opening
          obtain ⟨⟨part, after⟩, inside, same⟩ := Option.map_eq_some_iff.mp read
          cases same
          obtain ⟨ends, rfl⟩ := (group?_eq_some_iff rest part left).mp inside
          subst opening
          exact ⟨.group part ends, rfl⟩
        · rename_i ungrouped
          cases read
          exact ⟨.plain char (by simpa using unquoted) ungrouped, rfl⟩
  · rintro ⟨whole, rfl⟩
    cases whole with
    | literal quote part quoted ends =>
      have read := (literal?_eq_some_iff quote quoted (part ++ left) part left).mpr ⟨ends, rfl⟩
      rw [List.cons_append, atom?, if_pos quoted, read]
      rfl
    | group part ends =>
      have read := (group?_eq_some_iff (part ++ left) part left).mpr ⟨ends, rfl⟩
      rw [List.cons_append, atom?, if_neg (by decide), if_pos rfl, read]
      rfl
    | plain char unquoted ungrouped =>
      rw [List.singleton_append, atom?, if_neg (by simp [unquoted]), if_neg ungrouped]

namespace Reading

theorem none_of_stuck (text : List Char) (atoms : List (List Char)) (rest : List Char)
    (reading : Reading text atoms rest) : atom? rest = none := by
  by_contra unread
  obtain ⟨⟨atom, left⟩, read⟩ := Option.ne_none_iff_exists'.mp unread
  obtain ⟨whole, split⟩ := (atom?_eq_some_iff rest atom left).mp read
  exact reading.stuck atom whole ⟨left, split.symm⟩

theorem nil (text : List Char) (unread : atom? text = none) : Reading text [] text := by
  refine ⟨rfl, by simp, fun atom whole inside => ?_⟩
  obtain ⟨left, split⟩ := inside
  rw [(atom?_eq_some_iff text atom left).mpr ⟨whole, split.symm⟩] at unread
  cases unread

theorem cons (text atom left : List Char) (atoms : List (List Char)) (rest : List Char)
    (read : atom? text = some (atom, left)) (reading : Reading left atoms rest) :
    Reading text (atom :: atoms) rest := by
  obtain ⟨whole, rfl⟩ := (atom?_eq_some_iff text atom left).mp read
  refine ⟨?_, List.forall_mem_cons.mpr ⟨whole, reading.whole⟩, reading.stuck⟩
  rw [reading.split, List.flatten_cons, List.append_assoc]

/-- A text can be read in one way only. -/
theorem unique (text : List Char) (atoms others : List (List Char)) (rest left : List Char)
    (reading : Reading text atoms rest) (again : Reading text others left) :
    others = atoms ∧ left = rest := by
  induction atoms generalizing text others with
  | nil =>
    have stuck := reading.none_of_stuck
    have split := reading.split
    rw [List.flatten_nil, List.nil_append] at split
    subst split
    cases others with
    | nil => exact ⟨rfl, again.split.symm⟩
    | cons atom others =>
      have read := (atom?_eq_some_iff text atom (others.flatten ++ left)).mpr
        ⟨again.whole atom List.mem_cons_self, by simpa using again.split⟩
      rw [stuck] at read
      cases read
  | cons atom atoms ih =>
    have read := (atom?_eq_some_iff text atom (atoms.flatten ++ rest)).mpr
      ⟨reading.whole atom List.mem_cons_self, by simpa using reading.split⟩
    cases others with
    | nil =>
      have stuck := again.none_of_stuck
      have split := again.split
      rw [List.flatten_nil, List.nil_append] at split
      subst split
      rw [stuck] at read
      cases read
    | cons other others =>
      have reread := (atom?_eq_some_iff text other (others.flatten ++ left)).mpr
        ⟨again.whole other List.mem_cons_self, by simpa using again.split⟩
      rw [read, Option.some.injEq, Prod.mk.injEq] at reread
      obtain ⟨rfl, tail⟩ := reread
      obtain ⟨rfl, rfl⟩ := ih (atoms.flatten ++ rest) others
        ⟨rfl, fun part member => reading.whole part (List.mem_cons_of_mem _ member), reading.stuck⟩
        ⟨tail, fun part member => again.whole part (List.mem_cons_of_mem _ member), again.stuck⟩
      exact ⟨rfl, rfl⟩

end Reading

end SqlCompose.Text
