import Mathlib.Data.List.Induction
import SqlCompose.Condition
import SqlCompose.Proofs.Phrase

/-! Clauses in the course of a history: what a call can do to one, what the whole history makes of
it, and how the clauses of a statement are rendered one after the other. -/
namespace SqlCompose

namespace BoundPhrase

structure Holds (bound : BoundPhrase) (lead trail : String) (offers : List Offer) : Prop where
  phrase : bound.phrase.Holds lead trail offers
  params : bound.params = offers.flatMap Offer.params

variable {bound : BoundPhrase} {lead trail : String} {offers : List Offer}

theorem Holds.separatedBy (holds : bound.Holds lead trail offers) (separator : String) :
    Holds { bound with phrase := bound.phrase.separatedBy separator } lead trail offers :=
  ⟨holds.phrase.separatedBy separator, holds.params⟩

theorem Holds.fail (holds : bound.Holds lead trail offers) (error : Error)
    (joint : Option String) :
    (bound.fail error).Holds lead trail (offers ++ [⟨joint, .error error⟩]) := by
  refine ⟨holds.phrase.fail error joint, ?_⟩
  simp [BoundPhrase.fail, holds.params, Offer.params]

theorem Holds.add (holds : bound.Holds lead trail offers) (fragment : Fragment) :
    (bound.add fragment).Holds lead trail
      (offers ++ [⟨bound.phrase.separator, .ok fragment⟩]) := by
  refine ⟨holds.phrase.append fragment.text fragment.params, ?_⟩
  simp [BoundPhrase.add, BoundPhrase.append, bind, holds.params, Offer.params]

theorem Holds.appendAll {phrase : Phrase} (holds : Holds ⟨phrase, []⟩ lead trail offers)
    (texts : List String) :
    Holds ⟨phrase.appendAll texts, []⟩ lead trail
      (offers ++ texts.map (Offer.plain phrase.separator)) := by
  refine ⟨holds.phrase.appendAll texts, ?_⟩
  have unbound : [] = offers.flatMap Offer.params := holds.params
  rw [List.flatMap_append, ← unbound, List.flatMap_map]
  simp [Offer.plain, Offer.params]

theorem Holds.take (holds : bound.Holds lead trail offers) (content : Except Error Fragment) :
    (bound.take content).Holds lead trail (offers ++ [⟨bound.phrase.separator, content⟩]) := by
  cases content with
  | error error => exact holds.fail error _
  | ok fragment => exact holds.add fragment

theorem Holds.takeBehind (holds : bound.Holds lead trail offers) (separator : String)
    (content : Except Error Fragment) :
    (bound.takeBehind separator content).Holds lead trail
      (offers ++ [⟨some separator, content⟩]) := by
  cases content with
  | error error => exact holds.fail error _
  | ok fragment => exact (holds.separatedBy separator).add fragment

@[simp]
theorem add_separator (bound : BoundPhrase) (fragment : Fragment) :
    (bound.add fragment).phrase.separator = bound.phrase.separator :=
  Phrase.append_separator bound.phrase fragment.text

@[simp]
theorem take_separator (bound : BoundPhrase) (content : Except Error Fragment) :
    (bound.take content).phrase.separator = bound.phrase.separator := by
  cases content with
  | error error => rfl
  | ok fragment => exact add_separator bound fragment

/-- All that a call can do to a clause, together with what the clause was offered before and after
it. A clause has a fixed separator, or every call brings one. -/
inductive Turn (separator? : Option (Option String)) (bound : BoundPhrase) (offers : List Offer) :
    BoundPhrase → List Offer → Prop
  | kept (after : List Offer) (same : after = offers) : Turn separator? bound offers bound after
  | taken (joint : Option String) (separated : separator? = some joint)
      (content : Except Error Fragment) :
      Turn separator? bound offers (bound.take content) (offers ++ [⟨joint, content⟩])
  | texts (phrase : Phrase) (unbound : bound = ⟨phrase, []⟩) (joint : Option String)
      (separated : separator? = some joint) (texts : List String) :
      Turn separator? bound offers ⟨phrase.appendAll texts, []⟩
        (offers ++ texts.map (.plain joint))
  | behind (free : separator? = none) (separator : String) (content : Except Error Fragment) :
      Turn separator? bound offers (bound.takeBehind separator content)
        (offers ++ [⟨some separator, content⟩])
  | cleared (phrase : Phrase) (unbound : bound = ⟨phrase, []⟩) :
      Turn separator? bound offers ⟨phrase.reset, []⟩ []

structure Follows (separator? : Option (Option String)) (bound : BoundPhrase)
    (lead trail : String) (offers : List Offer) : Prop where
  holds : bound.Holds lead trail offers
  separated : ∀ separator, separator? = some separator → bound.phrase.separator = separator

theorem Follows.turn {separator? : Option (Option String)} {after : BoundPhrase}
    {lead trail : String} {later : List Offer}
    (follows : Follows separator? bound lead trail offers)
    (turn : Turn separator? bound offers after later) :
    Follows separator? after lead trail later := by
  cases turn with
  | kept _ same =>
    rw [same]
    exact follows
  | taken joint separated content =>
    have joined := follows.separated joint separated
    refine ⟨?_, ?_⟩
    · have taken := follows.holds.take content
      rwa [joined] at taken
    · intro separator known
      rw [take_separator]
      exact follows.separated separator known
  | texts phrase unbound joint separated texts =>
    subst unbound
    have joined : phrase.separator = joint := follows.separated joint separated
    refine ⟨?_, ?_⟩
    · have taken := follows.holds.appendAll texts
      rwa [joined] at taken
    · intro separator known
      exact (Phrase.appendAll_separator phrase texts).trans (follows.separated separator known)
  | behind free separator content =>
    refine ⟨follows.holds.takeBehind separator content, ?_⟩
    intro other known
    rw [free] at known
    cases known
  | cleared phrase unbound =>
    subst unbound
    exact ⟨⟨follows.holds.phrase.reset, rfl⟩, follows.separated⟩

end BoundPhrase

section Run

variable {State Call Part : Type}

/-- What holds of a new builder and is kept by every call holds after a whole history. -/
theorem foldl_keeps (step : State → Call → State) (Keeps : State → List Call → Prop)
    (kept : ∀ state before made, Keeps state before → Keeps (step state made) (before ++ [made]))
    (state : State) (before calls : List Call) (initial : Keeps state before) :
    Keeps (calls.foldl step state) (before ++ calls) := by
  induction calls generalizing state before with
  | nil => simpa using initial
  | cons made rest ih =>
    have next := ih (step state made) (before ++ [made]) (kept state before made initial)
    simpa using next

/-- If every call does to every clause one of the things that a call can do, then all clauses
follow what they were offered. -/
theorem foldl_follows (step : State → Call → State) (held : State → Part → BoundPhrase)
    (lead trail : Part → String) (separator? : Part → Option (Option String))
    (offered : Part → List Call → List Offer) (start : State)
    (new : ∀ part, (held start part).Follows (separator? part) (lead part) (trail part)
      (offered part []))
    (turn : ∀ state before made part, BoundPhrase.Turn (separator? part) (held state part)
      (offered part before) (held (step state made) part) (offered part (before ++ [made])))
    (calls : List Call) (part : Part) :
    (held (calls.foldl step start) part).Follows (separator? part) (lead part) (trail part)
      (offered part calls) :=
  foldl_keeps step
    (fun state before => ∀ part, (held state part).Follows (separator? part) (lead part)
      (trail part) (offered part before))
    (fun state before made follows part => (follows part).turn (turn state before made part))
    start [] calls new part

theorem exists_split_snoc (calls : List Call) (last : Call)
    (At : List Call → Call → List Call → Prop) :
    (∃ before made after, calls ++ [last] = before ++ made :: after ∧ At before made after) ↔
      At calls last [] ∨
      ∃ before made after, calls = before ++ made :: after ∧ At before made (after ++ [last]) := by
  constructor
  · intro place
    obtain ⟨before, made, after, split, holds⟩ := place
    cases after using List.reverseRecOn with
    | nil =>
      obtain ⟨rfl, same⟩ := List.append_inj' split rfl
      cases same
      exact .inl holds
    | append_singleton earlier final =>
      rw [← List.cons_append, ← List.append_assoc] at split
      obtain ⟨rfl, same⟩ := List.append_inj' split rfl
      cases same
      exact .inr ⟨before, made, earlier, rfl, holds⟩
  · intro place
    rcases place with holds | ⟨before, made, after, rfl, holds⟩
    · exact ⟨calls, last, [], rfl, holds⟩
    · exact ⟨before, made, after ++ [last], by simp, holds⟩

variable (offered : List Call → List Offer) (offers : Call → List Offer) (clears : Call → Bool)
  (new : offered [] = [])
  (snoc : ∀ before made, offered (before ++ [made]) =
    if clears made then [] else offered before ++ offers made)
include new snoc

theorem firstMisuse?_run (clause : String) (calls : List Call) :
    (Offer.firstMisuse? clause [] (offered calls)).isSome ↔
      ∃ before made after, calls = before ++ made :: after ∧
        clears made = false ∧
        (Offer.firstMisuse? clause (Offer.links (offered before)) (offers made)).isSome ∧
        ∀ later ∈ after, clears later = false := by
  induction calls using List.reverseRecOn with
  | nil => simp [new, Offer.firstMisuse?]
  | append_singleton before made ih =>
    rw [exists_split_snoc, snoc]
    cases cleared : clears made with
    | true => simp [cleared, Offer.firstMisuse?]
    | false =>
      simp only [Bool.false_eq_true, if_false, Offer.firstMisuse?_append, List.nil_append,
        List.mem_append, List.mem_singleton, or_imp, forall_and, forall_eq, cleared, and_true,
        true_and, List.not_mem_nil, false_implies, implies_true]
      rw [← ih]
      cases Offer.firstMisuse? clause [] (offered before) <;> simp

theorem mem_run (calls : List Call) (offer : Offer) :
    offer ∈ offered calls ↔
      ∃ before made after, calls = before ++ made :: after ∧
        clears made = false ∧ offer ∈ offers made ∧ ∀ later ∈ after, clears later = false := by
  induction calls using List.reverseRecOn with
  | nil => simp [new]
  | append_singleton before made ih =>
    rw [exists_split_snoc, snoc]
    cases cleared : clears made with
    | true => simp [cleared]
    | false =>
      simp only [Bool.false_eq_true, if_false, List.mem_append, List.mem_singleton, or_imp,
        forall_and, forall_eq, cleared, and_true, true_and, List.not_mem_nil, false_implies,
        implies_true]
      rw [← ih, or_comm]

end Run

def outcome (misuses : List (Option Error)) (text : String) : Except Error String :=
  match misuses.findSome? id with
  | some error => .error error
  | none => .ok text

theorem outcome_error_iff (misuses : List (Option Error)) (text : String) (error : Error) :
    outcome misuses text = .error error ↔ misuses.findSome? id = some error := by
  unfold outcome
  cases misuses.findSome? id <;> simp

theorem outcome_ok_iff (misuses : List (Option Error)) (text sql : String) :
    outcome misuses text = .ok sql ↔ misuses.findSome? id = none ∧ text = sql := by
  unfold outcome
  cases misuses.findSome? id <;> simp

theorem sound_of_misuses {Part : Type} (all : List Part) (misuse? : Part → Option Error)
    (sound : (all.map misuse?).findSome? id = none) (part : Part) (present : part ∈ all) :
    misuse? part = none :=
  List.findSome?_eq_none_iff.mp sound _ (List.mem_map.mpr ⟨part, present, rfl⟩)

theorem outcome_bind (first rest : List (Option Error)) (text final : String)
    (next : String → Except Error String) (following : next text = outcome rest final) :
    (outcome first text >>= next) = outcome (first ++ rest) final := by
  unfold outcome at following ⊢
  rw [List.findSome?_append]
  cases first.findSome? id with
  | some error => rfl
  | none => exact following

namespace Ledger

theorem text?_of_nil (ledger : Ledger) (empty : Offer.links ledger.offers = []) :
    ledger.text? = none := by
  simp [text?, empty]

theorem text?_of_ne_nil (ledger : Ledger) (filled : Offer.links ledger.offers ≠ []) :
    ledger.text? =
      some (ledger.lead ++ Link.joined (Offer.links ledger.offers) ++ ledger.trail) := by
  simp [text?, filled]

theorem text?_nonempty (ledger : Ledger) (text : String) (given : ledger.text? = some text) :
    text ≠ "" := by
  by_cases empty : Offer.links ledger.offers = []
  · rw [text?_of_nil ledger empty] at given
    cases given
  · rw [text?_of_ne_nil ledger empty, Option.some.injEq] at given
    subst given
    have joined := Offer.joined_links_ne ledger.offers empty
    simp [String.append_eq_empty_iff, joined]

theorem layout_singleton (ledger : Ledger) : layout [ledger] = ledger.text?.getD "" := by
  unfold layout
  cases found : ledger.text? <;> simp [found]

theorem joinClauses_texts (ledgers : List Ledger) :
    joinClauses (ledgers.map fun ledger => ledger.text?.getD "") = layout ledgers := by
  have kept : (ledgers.map fun ledger => ledger.text?.getD "").filter
      (fun clause => !clause.isEmpty) = ledgers.filterMap text? := by
    induction ledgers with
    | nil => rfl
    | cons ledger rest ih =>
      cases found : ledger.text? with
      | none => simp [found, ih]
      | some text =>
        have nonempty := text?_nonempty ledger text found
        simp [found, ih, nonempty]
  unfold joinClauses layout
  rw [kept]

theorem text?_getD_isEmpty (ledger : Ledger) :
    (ledger.text?.getD "").isEmpty = (Offer.links ledger.offers).isEmpty := by
  by_cases empty : Offer.links ledger.offers = []
  · simp [text?_of_nil ledger empty, empty]
  · have nonempty := text?_nonempty ledger _ (text?_of_ne_nil ledger empty)
    rw [text?_of_ne_nil ledger empty, Option.getD_some]
    simp only [List.isEmpty_eq_false_iff.mpr empty, String.isEmpty_eq_false_iff]
    exact nonempty

end Ledger

theorem Phrase.Holds.renderWith_eq {phrase : Phrase} {lead trail : String} {offers : List Offer}
    (holds : phrase.Holds lead trail offers) (heading : String) :
    phrase.renderWith (some heading) =
      outcome [Ledger.misuse? ⟨lead, trail, offers⟩]
        ((Ledger.text? ⟨heading, trail, offers⟩).getD "") := by
  rw [holds.renderWith]
  unfold outcome Ledger.misuse?
  cases found : Offer.firstMisuse? (Text.trimmed lead) [] offers <;> rfl

theorem Phrase.Holds.render_eq {phrase : Phrase} {lead trail : String} {offers : List Offer}
    (holds : phrase.Holds lead trail offers) :
    phrase.render =
      outcome [Ledger.misuse? ⟨lead, trail, offers⟩]
        ((Ledger.text? ⟨lead, trail, offers⟩).getD "") := by
  unfold Phrase.render
  rw [holds.leads]
  exact holds.renderWith_eq lead

theorem Condition.renderHeaded_eq {condition : Condition} {keyword : String} {offers : List Offer}
    (holds : condition.clause.phrase.Holds keyword "" offers) (headed : Bool) :
    condition.renderHeaded headed =
      outcome [Ledger.misuse? ⟨keyword, "", offers⟩]
        ((Ledger.text? ⟨if headed then keyword else "", "", offers⟩).getD "") := by
  cases headed with
  | true => exact holds.render_eq
  | false => exact holds.renderWith_eq ""

end SqlCompose
