import SqlCompose.Proofs.Misuse

/-! Misuse is surfaced: a builder fails to render exactly when it was misused, with the first misuse
of the first clause that was misused, and no later call takes that back but one that clears the
clause. -/
namespace SqlCompose

theorem findSome?_id_eq_some_iff (misuses : List (Option Error)) (error : Error) :
    misuses.findSome? id = some error ↔
      ∃ before after, misuses = before ++ some error :: after ∧
        ∀ clause ∈ before, clause = none := by
  rw [List.findSome?_eq_some_iff]
  constructor
  · intro first
    obtain ⟨before, found, after, split, rfl, none⟩ := first
    exact ⟨before, after, split, none⟩
  · intro first
    obtain ⟨before, after, split, none⟩ := first
    exact ⟨before, some error, after, split, rfl, none⟩

namespace Ledger

/-- The misuse of a clause is the earliest one among its offers. -/
theorem misuse?_eq_some_iff (ledger : Ledger) (error : Error) :
    ledger.misuse? = some error ↔
      ∃ before offer after, ledger.offers = before ++ offer :: after ∧
        misuse? { ledger with offers := before } = none ∧
        offer.misuse? (Text.trimmed ledger.lead) (Offer.links before) = some error := by
  obtain ⟨lead, trail, offers⟩ := ledger
  simp only [misuse?]
  generalize Text.trimmed lead = clause
  constructor
  · induction offers using List.reverseRecOn with
    | nil => simp [Offer.firstMisuse?]
    | append_singleton before offer ih =>
      rw [Offer.firstMisuse?_snoc, List.nil_append]
      cases earlier : Offer.firstMisuse? clause [] before with
      | none =>
        intro misused
        exact ⟨before, offer, [], rfl, earlier, misused⟩
      | some first =>
        intro misused
        obtain ⟨start, found, rest, split, sound, struck⟩ := ih (earlier.trans misused)
        exact ⟨start, found, rest ++ [offer], by simp [split], sound, struck⟩
  · intro earliest
    obtain ⟨before, offer, after, rfl, sound, struck⟩ := earliest
    rw [Offer.firstMisuse?_append, sound, List.nil_append, Offer.firstMisuse?]
    simp [struck]

theorem misuse?_offered_more (ledger : Ledger) (more : List Offer) (error : Error)
    (misused : ledger.misuse? = some error) :
    misuse? { ledger with offers := ledger.offers ++ more } = some error := by
  unfold misuse? at misused ⊢
  rw [Offer.firstMisuse?_append, misused]

end Ledger

theorem SelectStatement.offered_append (part : Part) (calls later : List Call)
    (kept : ∀ made ∈ later, made.part = part → made.clears = false) :
    ∃ more, offered part (calls ++ later) = offered part calls ++ more := by
  induction later using List.reverseRecOn with
  | nil => exact ⟨[], by simp⟩
  | append_singleton before made ih =>
    obtain ⟨more, grown⟩ := ih fun call present => kept call (List.mem_append_left _ present)
    rw [← List.append_assoc, offered_snoc, grown]
    by_cases own : made.part = part
    · have uncleared := kept made (by simp) own
      exact ⟨more ++ made.offers, by simp [own, uncleared]⟩
    · exact ⟨more, by simp [own]⟩

namespace History

theorem misused_iff (history : History) :
    (∃ error, history.misuse? = some error) ↔ history.Misused := by
  have found : (∃ error, history.misuse? = some error) ↔
      ∃ clause ∈ history.misuses, clause.isSome := by
    rw [← Option.isSome_iff_exists, misuse?, List.findSome?_isSome_iff]
    simp
  have among {Part : Type} (all : List Part) (complete : ∀ part, part ∈ all)
      (misuse? : Part → Option Error) :
      (∃ clause ∈ all.map misuse?, clause.isSome) ↔ ∃ part, (misuse? part).isSome := by
    simp [complete]
  rw [found]
  cases history with
  | select calls =>
    exact (among _ SelectStatement.Part.mem_all _).trans (SelectStatement.misused_iff calls)
  | union calls =>
    exact (among _ UnionStatement.Part.mem_all _).trans (UnionStatement.misused_iff calls)
  | insert calls =>
    exact (among _ InsertStatement.Part.mem_all _).trans (InsertStatement.misused_iff calls)
  | update calls =>
    exact (among _ UpdateStatement.Part.mem_all _).trans (UpdateStatement.misused_iff calls)
  | delete calls =>
    exact (among _ DeleteStatement.Part.mem_all _).trans (DeleteStatement.misused_iff calls)
  | condition calls =>
    refine Iff.trans ?_ (Condition.misused_iff calls)
    simp [misuses]

theorem misuse_at_index {Part : Type} (all : List Part) (ledger longer : Part → Ledger)
    (index : Nat) (error : Error)
    (grown : ∀ part, all[index]? = some part →
      ∃ more, longer part = { ledger part with offers := (ledger part).offers ++ more })
    (misused : (all.map fun part => (ledger part).misuse?)[index]? = some (some error)) :
    (all.map fun part => (longer part).misuse?)[index]? = some (some error) := by
  rw [List.getElem?_map, Option.map_eq_some_iff] at misused ⊢
  obtain ⟨part, placed, struck⟩ := misused
  obtain ⟨more, extended⟩ := grown part placed
  refine ⟨part, placed, ?_⟩
  rw [extended]
  exact (ledger part).misuse?_offered_more more error struck

theorem misuses_continues (history later : History) (index : Nat) (error : Error)
    (continues : Continues index history later)
    (misused : history.misuses[index]? = some (some error)) :
    later.misuses[index]? = some (some error) := by
  cases continues with
  | select calls more kept =>
    refine misuse_at_index _ (SelectStatement.ledger calls) _ index error ?_ misused
    intro part placed
    obtain ⟨offers, grown⟩ := SelectStatement.offered_append part calls more
      fun made present own => kept made present (by rw [placed, own])
    exact ⟨offers, by rw [SelectStatement.ledger, grown, SelectStatement.ledger]⟩
  | union calls more =>
    refine misuse_at_index _ (UnionStatement.ledger calls) _ index error ?_ misused
    intro part _
    exact ⟨_, by rw [UnionStatement.ledger, List.flatMap_append, UnionStatement.ledger]⟩
  | insert calls more =>
    refine misuse_at_index _ (InsertStatement.ledger calls) _ index error ?_ misused
    intro part _
    exact ⟨_, by rw [InsertStatement.ledger, List.flatMap_append, InsertStatement.ledger]⟩
  | update calls more =>
    refine misuse_at_index _ (UpdateStatement.ledger calls) _ index error ?_ misused
    intro part _
    exact ⟨_, by rw [UpdateStatement.ledger, List.flatMap_append, UpdateStatement.ledger]⟩
  | delete calls more =>
    refine misuse_at_index _ (DeleteStatement.ledger calls) _ index error ?_ misused
    intro part _
    exact ⟨_, by rw [DeleteStatement.ledger, List.flatMap_append, DeleteStatement.ledger]⟩
  | condition calls more =>
    refine misuse_at_index [()] (fun _ => Condition.ledger calls)
      (fun _ => Condition.ledger (calls ++ more)) index error ?_ misused
    intro _ _
    exact ⟨_, by rw [Condition.ledger, List.map_append, Condition.ledger]⟩

/-- Builders of every kind fail exactly when misused. The error is the earliest misuse in the first
clause with one, or the error of a nested builder where that is the misuse, and it stays whatever
is called later unless its clause is cleared. -/
theorem fails_iff_misused (history : History) :
    (history.rendering.Fails ↔ history.Misused) ∧
    (∀ error, history.rendering.text = .error error ↔
      ∃ before after, history.misuses = before ++ some error :: after ∧
        ∀ clause ∈ before, clause = none) ∧
    (∀ (ledger : Ledger) (error : Error), ledger.misuse? = some error ↔
      ∃ before offer after, ledger.offers = before ++ offer :: after ∧
        Ledger.misuse? { ledger with offers := before } = none ∧
        offer.misuse? (Text.trimmed ledger.lead) (Offer.links before) = some error) ∧
    (∀ (nested : Rendering) (error : Error),
      (nested.fragment = .error error ↔ nested.text = .error error) ∧
      (UnionStatement.branch? nested = .error error ↔ nested.text = .error error) ∧
      ∀ template, substitute template nested = .error error ↔
        slotCount template = 0 ∧ error = .tooManyParameters template 0 1 ∨
        1 < slotCount template ∧ error = .tooFewParameters template (slotCount template) 1 ∨
        slotCount template = 1 ∧ nested.text = .error error ∨
        slotCount template = 1 ∧ nested.text = .ok "" ∧
          error = .misuse (.emptyQuery template)) ∧
    ∀ later index error, Continues index history later →
      history.misuses[index]? = some (some error) →
      later.misuses[index]? = some (some error) ∧ later.rendering.Fails := by
  have fails (other : History) (error : Error) :
      other.rendering.text = .error error ↔ other.misuse? = some error := by
    rw [text_rendering, outcome_error_iff]
    rfl
  refine ⟨?_, ?_, Ledger.misuse?_eq_some_iff, ?_, ?_⟩
  · rw [← misused_iff]
    simp only [Rendering.Fails, fails]
  · intro error
    rw [fails, ← findSome?_id_eq_some_iff]
    rfl
  · intro nested error
    refine ⟨nested.fragment_eq_error_iff error, ?_,
      fun template => substitute_error_iff template nested error⟩
    unfold UnionStatement.branch?
    cases rendered : nested.text with
    | error own => simp [bind, Except.bind]
    | ok text =>
      obtain ⟨sql, enclosed⟩ := nested.nested_of_text text rendered
      by_cases empty : text = "" <;>
        simp [bind, Except.bind, pure, Except.pure, empty, enclosed]
  · intro later index error continues misused
    have kept := misuses_continues history later index error continues misused
    refine ⟨kept, ?_⟩
    have member : some error ∈ later.misuses := List.mem_of_getElem? kept
    have struck : (later.misuses.findSome? id).isSome := by
      rw [List.findSome?_isSome_iff]
      exact ⟨_, member, rfl⟩
    obtain ⟨first, found⟩ := Option.isSome_iff_exists.mp struck
    exact ⟨first, (fails later first).mpr found⟩

theorem fails_iff_misused_second_limit :
    (select [.column "a", .limit 1, .limit 2]).rendering.text =
      .error (.misuse (.noSeparator "LIMIT" "2" "1")) ∧
    (select [.column "a", .limit 1, .limit 2, .withoutOffset, .limit 3]).misuses[9]? =
      some (some (.misuse (.noSeparator "LIMIT" "2" "1"))) ∧
    (select [.column "a", .limit 1, .limit 2, .withoutOffset, .limit 3]).rendering.Fails := by
  obtain ⟨_, error_iff, _, _, stays⟩ :=
    fails_iff_misused (select [.column "a", .limit 1, .limit 2])
  have misuses : (select [.column "a", .limit 1, .limit 2]).misuses =
      List.replicate 9 none ++ [some (.misuse (.noSeparator "LIMIT" "2" "1"))] := rfl
  have continued : Continues 9 (select [.column "a", .limit 1, .limit 2])
      (select [.column "a", .limit 1, .limit 2, .withoutOffset, .limit 3]) := by
    refine .select _ [.withoutOffset, .limit 3] fun made present placed => ?_
    simp only [List.mem_cons, List.not_mem_nil, or_false] at present
    obtain rfl | rfl := present
    · cases placed
    · rfl
  refine ⟨(error_iff _).mpr ⟨_, [], misuses, ?_⟩, stays _ 9 _ continued ?_⟩
  · intro clause present
    exact (List.mem_replicate.mp present).2
  · rw [misuses]
    rfl

end History

end SqlCompose
