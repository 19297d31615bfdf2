import Mathlib.Data.List.Induction
import SqlCompose.Chunk

/-! What is read of a text does not depend on what comes later: a literal or group ends where it
ends, and a keyword is told by the text up to the next blank. -/
namespace SqlCompose

namespace Text

theorem readUntil_alone {State : Type} (step : State → Char → Option State) (state : State)
    (text part left more : List Char) (read : readUntil step state text = some (part, left)) :
    readUntil step state (part ++ more) = some (part, more) := by
  induction text generalizing state part with
  | nil => simp [readUntil] at read
  | cons char rest ih =>
    rw [readUntil_cons_eq_some_iff] at read
    rcases read with ⟨stopped, rfl, _⟩ | ⟨next, inner, stepped, inside, rfl⟩
    · exact (readUntil_cons_eq_some_iff ..).mpr (.inl ⟨stopped, rfl, rfl⟩)
    · exact (readUntil_cons_eq_some_iff ..).mpr
        (.inr ⟨next, inner, stepped, ih next inner inside, rfl⟩)

theorem readUntil_last {State : Type} (step : State → Char → Option State) (Stays : State → Prop)
    (stays : ∀ state char next, Stays state → step state char = some next → Stays next)
    (state : State) (text part left : List Char) (holds : Stays state)
    (read : readUntil step state text = some (part, left)) :
    ∃ front last final, part = front ++ [last] ∧ Stays final ∧ step final last = none := by
  induction text generalizing state part with
  | nil => simp [readUntil] at read
  | cons char rest ih =>
    rw [readUntil_cons_eq_some_iff] at read
    rcases read with ⟨stopped, rfl, _⟩ | ⟨next, inner, stepped, inside, rfl⟩
    · exact ⟨[], char, state, rfl, holds, stopped⟩
    · have kept := stays state char next holds stepped
      obtain ⟨front, last, final, ends, stayed, stopped⟩ := ih next inner kept inside
      exact ⟨char :: front, last, final, by rw [ends, List.cons_append], stayed, stopped⟩

theorem within_inside (quote char : Char) :
    Quoting.within (.inside quote) char =
      if char = '\x5c' then some (.escaped quote)
      else if char = quote then none else some (.inside quote) := by
  by_cases escape : char = '\x5c'
  · simp [Quoting.within, Quoting.step, escape]
  · by_cases closing : char = quote
    · subst closing
      simp [Quoting.within, Quoting.step, escape]
    · simp [Quoting.within, Quoting.step, escape, closing]

theorem literal_last (quote : Char) (text part left : List Char)
    (read : literal? quote text = some (part, left)) : ∃ front, part = front ++ [quote] := by
  have stays : ∀ state char next, (state = Quoting.inside quote ∨ state = .escaped quote) →
      Quoting.within state char = some next → next = .inside quote ∨ next = .escaped quote := by
    intro state char next held stepped
    rcases held with rfl | rfl
    · rw [within_inside] at stepped
      split at stepped
      · exact .inr (Option.some.inj stepped).symm
      · split at stepped
        · cases stepped
        · exact .inl (Option.some.inj stepped).symm
    · exact .inl (Option.some.inj stepped).symm
  obtain ⟨front, last, final, ends, held, stopped⟩ :=
    readUntil_last _ _ stays _ text part left (.inl rfl) read
  rcases held with rfl | rfl
  · rw [within_inside] at stopped
    split at stopped
    · cases stopped
    · split at stopped
      · rename_i closing
        exact ⟨front, by rw [ends, closing]⟩
      · cases stopped
  · cases stopped

theorem group_last (text part left : List Char) (read : group? text = some (part, left)) :
    ∃ front, part = front ++ [')'] := by
  obtain ⟨front, last, final, ends, _, stopped⟩ :=
    readUntil_last _ (fun _ => True) (fun _ _ _ _ _ => trivial) _ text part left trivial read
  unfold Nesting.within at stopped
  split at stopped
  · cases stopped
  · exact ⟨front, ends⟩
  · cases stopped
  · cases stopped

inductive Sealed : List Char → Prop
  | literal (quote : Char) (part : List Char) (quoted : isQuote quote = true)
      (read : ∀ more, literal? quote (part ++ more) = some (part, more)) : Sealed (quote :: part)
  | group (part : List Char) (read : ∀ more, group? (part ++ more) = some (part, more)) :
      Sealed ('(' :: part)

inductive Whole : List Char → Prop
  | nil : Whole []
  | set (text rest : List Char) (closed : Sealed text) (whole : Whole rest) : Whole (text ++ rest)
  | plain (char : Char) (rest : List Char) (unquoted : isQuote char = false)
      (ungrouped : char ≠ '(') (whole : Whole rest) : Whole (char :: rest)

theorem plain_of_isAsciiBlank (char : Char) (blank : isAsciiBlank char = true) :
    isQuote char = false ∧ char ≠ '(' := by
  rcases eq_of_isAsciiBlank char blank with rfl | rfl | rfl | rfl | rfl <;> decide

theorem plain_of_isBlank (char : Char) (blank : isBlank char = true) :
    isQuote char = false ∧ char ≠ '(' ∧ char ≠ ')' := by
  refine ⟨?_, ?_, ?_⟩
  · by_contra quoted
    rw [Bool.not_eq_false] at quoted
    rcases eq_of_isQuote char quoted with rfl | rfl | rfl <;> exact absurd blank (by decide)
  all_goals
    rintro rfl
    exact absurd blank (by decide)

theorem Sealed.edges (text : List Char) (closed : Sealed text) :
    (∃ first rest, text = first :: rest ∧ (isQuote first = true ∨ first = '(')) ∧
    ∃ front last, text = front ++ [last] ∧ (isQuote last = true ∨ last = ')') := by
  cases closed with
  | literal quote part quoted read =>
    obtain ⟨front, ends⟩ := literal_last quote _ part [] (read [])
    refine ⟨⟨quote, part, rfl, .inl quoted⟩, quote :: front, quote, ?_, .inl quoted⟩
    rw [ends, List.cons_append]
  | group part read =>
    obtain ⟨front, ends⟩ := group_last _ part [] (read [])
    refine ⟨⟨'(', part, rfl, .inr rfl⟩, '(' :: front, ')', ?_, .inr rfl⟩
    rw [ends, List.cons_append]

theorem Whole.of_cons (char : Char) (rest : List Char) (unquoted : isQuote char = false)
    (ungrouped : char ≠ '(') (whole : Whole (char :: rest)) : Whole rest := by
  generalize same : char :: rest = text at whole
  cases whole with
  | nil => cases same
  | set text more closed whole =>
    obtain ⟨⟨first, tail, begins, opening⟩, _⟩ := closed.edges
    rw [begins, List.cons_append] at same
    cases same
    rcases opening with quoted | grouped
    · rw [unquoted] at quoted
      cases quoted
    · exact absurd grouped ungrouped
  | plain other more _ _ whole =>
    cases same
    exact whole

theorem Whole.of_snoc (front : List Char) (char : Char) (unquoted : isQuote char = false)
    (ungrouped : char ≠ ')') (whole : Whole (front ++ [char])) : Whole front := by
  generalize same : front ++ [char] = text at whole
  induction whole generalizing front with
  | nil => simp at same
  | set text rest closed whole ih =>
    cases rest using List.reverseRecOn with
    | nil =>
      obtain ⟨_, init, last, ends, closing⟩ := closed.edges
      rw [List.append_nil, ends] at same
      have equal := (List.append_inj' same rfl).2
      cases equal
      rcases closing with quoted | grouped
      · rw [unquoted] at quoted
        cases quoted
      · exact absurd grouped ungrouped
    | append_singleton init last =>
      rw [← List.append_assoc] at same
      obtain ⟨rfl, equal⟩ := List.append_inj' same rfl
      cases equal
      exact .set text init closed (ih init rfl)
  | plain other rest unquoted ungrouped whole ih =>
    cases front with
    | nil => exact .nil
    | cons first front =>
      simp only [List.cons_append, List.cons.injEq] at same
      obtain ⟨rfl, tail⟩ := same
      exact .plain first front unquoted ungrouped (ih front tail)

end Text

namespace Clause

theorem toUpper_of_not_isAlpha (char : Char) (other : char.isAlpha = false) :
    char.toUpper = char := by
  refine dif_neg fun lower => ?_
  have small : char.isLower = true :=
    Bool.and_eq_true_iff.mpr ⟨decide_eq_true lower.1, decide_eq_true lower.2⟩
  rw [(Bool.or_eq_false_iff.mp other).2] at small
  cases small

theorem isAlpha_of_toUpper (char letter : Char) (same : char.toUpper = letter)
    (alphabetic : letter.isAlpha = true) : char.isAlpha = true := by
  by_contra other
  rw [Bool.not_eq_true] at other
  rw [toUpper_of_not_isAlpha char other] at same
  rw [same, alphabetic] at other
  cases other

theorem toUpper_ne_space (char : Char) (alphabetic : char.isAlpha = true) :
    char.toUpper ≠ ' ' := by
  intro gap
  by_cases lower : 'a'.val ≤ char.val ∧ char.val ≤ 'z'.val
  · have shifted : char.toUpper = _ := dif_pos lower
    have code := congrArg (fun letter => letter.val.toNat) (shifted.symm.trans gap)
    have least := UInt32.le_iff_toNat_le.mp lower.1
    have greatest := UInt32.le_iff_toNat_le.mp lower.2
    simp at code least greatest
    omega
  · have same : char.toUpper = char := dif_neg lower
    rw [← same, gap] at alphabetic
    exact absurd alphabetic (by decide)

theorem isAlpha_of_isAsciiBlank (char : Char) (blank : Text.isAsciiBlank char = true) :
    char.isAlpha = false := by
  rcases Text.eq_of_isAsciiBlank char blank with rfl | rfl | rfl | rfl | rfl <;> decide

theorem plain_of_isAlpha (char : Char) (alphabetic : char.isAlpha = true) :
    Text.isQuote char = false ∧ char ≠ '(' ∧ Text.isAsciiBlank char = false := by
  refine ⟨?_, ?_, ?_⟩
  · by_contra quoted
    rw [Bool.not_eq_false] at quoted
    rcases Text.eq_of_isQuote char quoted with rfl | rfl | rfl <;>
      exact absurd alphabetic (by decide)
  · intro opening
    rw [opening] at alphabetic
    exact absurd alphabetic (by decide)
  · by_contra blank
    rw [Bool.not_eq_false] at blank
    rw [isAlpha_of_isAsciiBlank char blank] at alphabetic
    cases alphabetic

theorem begins_iff (keyword text : List Char) :
    begins keyword text = true ↔
      ∃ spelled rest, text = spelled ++ rest ∧ spelled.map Char.toUpper = keyword ∧
        ∀ char ∈ rest.head?, Text.isAsciiBlank char = true := by
  induction keyword generalizing text with
  | nil =>
    cases text with
    | nil => simp [begins]
    | cons char rest =>
      constructor
      · intro blank
        exact ⟨[], char :: rest, rfl, rfl, by simpa [begins] using blank⟩
      · intro split
        obtain ⟨spelled, tail, same, upper, blank⟩ := split
        rw [List.map_eq_nil_iff] at upper
        rw [upper, List.nil_append] at same
        rw [← same] at blank
        exact blank char rfl
  | cons letter keyword ih =>
    cases text with
    | nil => simp [begins]
    | cons char rest =>
      rw [begins, Bool.and_eq_true, decide_eq_true_eq, ih]
      constructor
      · intro both
        obtain ⟨same, spelled, tail, rfl, rfl, blank⟩ := both
        exact ⟨char :: spelled, tail, rfl, by rw [List.map_cons, same], blank⟩
      · intro split
        obtain ⟨spelled, tail, same, upper, blank⟩ := split
        cases spelled with
        | nil => cases upper
        | cons first spelled =>
          rw [List.cons_append] at same
          cases same
          rw [List.map_cons] at upper
          cases upper
          exact ⟨rfl, spelled, tail, rfl, rfl, blank⟩

theorem begins_blank (keyword text rest : List Char) (blank : Char)
    (isBlank : Text.isAsciiBlank blank = true)
    (lettered : ∀ letter ∈ keyword, letter.isAlpha = true ∨ letter = ' ')
    (single : ∀ back, ' ' :: back <:+ keyword → begins back rest = false) :
    begins keyword (text ++ blank :: rest) = begins keyword text := by
  induction keyword generalizing text with
  | nil =>
    cases text with
    | nil => exact isBlank
    | cons char tail => rfl
  | cons letter keyword ih =>
    cases text with
    | nil =>
      rw [List.nil_append, begins, begins, toUpper_of_not_isAlpha blank
        (isAlpha_of_isAsciiBlank blank isBlank)]
      by_cases same : letter = blank
      · rcases lettered letter List.mem_cons_self with alphabetic | space
        · rw [same, isAlpha_of_isAsciiBlank blank isBlank] at alphabetic
          cases alphabetic
        · subst space
          rw [single keyword (List.suffix_refl _), Bool.and_false]
      · rw [decide_eq_false same, Bool.false_and]
    | cons char tail =>
      rw [List.cons_append, begins, begins, ih tail
        (fun other member => lettered other (List.mem_cons_of_mem _ member))
        (fun back suffix => single back (suffix.trans (List.suffix_cons _ _)))]

theorem keyword_lettered (clause : Clause) :
    ∀ letter ∈ clause.keyword.toList, letter.isAlpha = true ∨ letter = ' ' := by
  have listed : clause.keyword.toList.all (fun letter => letter.isAlpha || letter = ' ') := by
    cases clause <;> decide
  intro letter member
  have own := List.all_eq_true.mp listed letter member
  simpa using own

theorem length_spelled (clause : Clause) (spelled : List Char)
    (upper : spelled.map Char.toUpper = clause.keyword.toList) :
    clause.keyword.length = spelled.length := by
  rw [← String.length_toList, ← upper, List.length_map]

theorem spelled_lettered (clause : Clause) (spelled : List Char)
    (upper : spelled.map Char.toUpper = clause.keyword.toList) :
    ∀ char ∈ spelled, char.isAlpha = true ∨ char = ' ' := by
  intro char member
  have capital : char.toUpper ∈ clause.keyword.toList := by
    rw [← upper]
    exact List.mem_map.mpr ⟨char, member, rfl⟩
  cases alphabetic : char.isAlpha with
  | true => exact .inl rfl
  | false =>
    have same := toUpper_of_not_isAlpha char alphabetic
    rw [same] at capital
    rcases clause.keyword_lettered char capital with letter | space
    · rw [alphabetic] at letter
      cases letter
    · exact .inr space

theorem keyword_second_word (clause : Clause) (back : List Char)
    (suffix : ' ' :: back <:+ clause.keyword.toList) : back = ['B', 'Y'] := by
  cases clause with
  | groupBy => simpa [keyword, List.suffix_cons_iff] using suffix
  | orderBy => simpa [keyword, List.suffix_cons_iff] using suffix
  | _ => simp [keyword, List.suffix_cons_iff] at suffix

theorem keyword_first_letter (clause : Clause) :
    ∃ first rest, clause.keyword.toList = first :: rest ∧ first ≠ 'B' ∧ first.isAlpha = true := by
  cases clause <;> exact ⟨_, _, rfl, by decide, by decide⟩

theorem at?_blank (text rest : List Char) (blank : Char)
    (isBlank : Text.isAsciiBlank blank = true)
    (apart : ∀ char ∈ rest.head?, char.toUpper ≠ 'B') :
    at? (text ++ blank :: rest) = at? text := by
  have single : begins ['B', 'Y'] rest = false := by
    cases rest with
    | nil => rfl
    | cons char tail =>
      have other := apart char rfl
      rw [begins, decide_eq_false (Ne.symm other), Bool.false_and]
  have same : (fun clause : Clause => begins clause.keyword.toList (text ++ blank :: rest)) =
      fun clause => begins clause.keyword.toList text := by
    funext clause
    apply begins_blank _ _ _ _ isBlank (keyword_lettered clause)
    intro back suffix
    rw [keyword_second_word clause back suffix]
    exact single
  unfold at?
  rw [same]

theorem mem_all (clause : Clause) : clause ∈ all := by
  cases clause <;> decide

theorem keyword_prefix (first second : Clause)
    (inside : first.keyword.toList <+: second.keyword.toList) : first = second := by
  have apart : ∀ first ∈ all, ∀ second ∈ all,
      first.keyword.toList <+: second.keyword.toList → first = second := by decide
  exact apart first first.mem_all second second.mem_all inside

theorem at?_eq_some_iff (text : List Char) (clause : Clause) :
    at? text = some clause ↔ begins clause.keyword.toList text = true := by
  constructor
  · intro found
    have begun := List.find?_some found
    exact begun
  · intro begun
    have present : (at? text).isSome := by
      rw [at?, List.find?_isSome]
      exact ⟨clause, clause.mem_all, begun⟩
    obtain ⟨other, found⟩ := Option.isSome_iff_exists.mp present
    have satisfied := List.find?_some found
    have also : begins other.keyword.toList text = true := satisfied
    obtain ⟨spelled, rest, split, upper, _⟩ := (begins_iff _ _).mp begun
    obtain ⟨letters, tail, resplit, capital, _⟩ := (begins_iff _ _).mp also
    have front : spelled <+: text := ⟨rest, split.symm⟩
    have again : letters <+: text := ⟨tail, resplit.symm⟩
    rcases List.prefix_or_prefix_of_prefix front again with inside | inside
    · have mapped := inside.map Char.toUpper
      rw [upper, capital] at mapped
      rw [found, keyword_prefix clause other mapped]
    · have mapped := inside.map Char.toUpper
      rw [upper, capital] at mapped
      rw [found, keyword_prefix other clause mapped]

/-- No keyword holds a character that is neither a letter nor a blank, and none ends before it. -/
theorem at?_divided (text rest : List Char) (divider : Char)
    (unlettered : divider.isAlpha = false) (unblank : Text.isAsciiBlank divider = false)
    (unkeyed : at? text = none) : at? (text ++ divider :: rest) = none := by
  by_contra keyed
  obtain ⟨clause, found⟩ := Option.ne_none_iff_exists'.mp keyed
  rw [at?_eq_some_iff, begins_iff] at found
  obtain ⟨spelled, tail, split, upper, bounded⟩ := found
  rcases List.append_eq_append_iff.mp split with ⟨inner, same, behind⟩ | ⟨inner, same, behind⟩
  · cases inner with
    | nil =>
      rw [List.nil_append] at behind
      rw [← behind] at bounded
      have blank := bounded divider rfl
      rw [unblank] at blank
      cases blank
    | cons char inner =>
      rw [List.cons_append, List.cons.injEq] at behind
      obtain ⟨rfl, _⟩ := behind
      have lettered : divider.toUpper ∈ clause.keyword.toList := by
        rw [← upper, same]
        exact List.mem_map.mpr ⟨divider, by simp, rfl⟩
      rw [toUpper_of_not_isAlpha divider unlettered] at lettered
      rcases keyword_lettered clause divider lettered with letter | space
      · rw [unlettered] at letter
        cases letter
      · rw [space] at unblank
        cases unblank
  · have begun : at? text = some clause := by
      rw [at?_eq_some_iff, begins_iff]
      refine ⟨spelled, inner, same, upper, ?_⟩
      intro char first
      apply bounded
      rw [behind, List.head?_append, Option.mem_def.mp first]
      rfl
    rw [unkeyed] at begun
    cases begun

theorem at?_head (text : List Char) (clause : Clause) (found : at? text = some clause) :
    ∃ char rest, text = char :: rest ∧ char.toUpper ≠ 'B' ∧ char.isAlpha = true := by
  have begun := (at?_eq_some_iff text clause).mp found
  obtain ⟨first, keyword, spelled, other, alphabetic⟩ := keyword_first_letter clause
  rw [spelled] at begun
  cases text with
  | nil => cases begun
  | cons char rest =>
    rw [begins, Bool.and_eq_true, decide_eq_true_eq] at begun
    rw [begun.1] at other alphabetic
    exact ⟨char, rest, rfl, other, isAlpha_of_toUpper char _ rfl alphabetic⟩

theorem at?_of_unlettered (char : Char) (rest : List Char) (unlettered : char.isAlpha = false) :
    at? (char :: rest) = none := by
  cases found : at? (char :: rest) with
  | none => rfl
  | some clause =>
    obtain ⟨first, tail, same, _, alphabetic⟩ := at?_head _ clause found
    cases same
    rw [unlettered] at alphabetic
    cases alphabetic

end Clause

end SqlCompose
