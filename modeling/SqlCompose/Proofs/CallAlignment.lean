import Mathlib.Data.List.Forall2
import Mathlib.Data.List.Perm.Basic
import SqlCompose.Proofs.Alignment

/-! What a call offers to the clauses of a builder is aligned with what it supplies, and so is what
all calls of a history offer. -/
namespace SqlCompose

structure Supply.Borne (supply : Supply) (inner : List (List Fragment)) : Prop where
  proper : ∀ handed ∈ supply.texts, handed.Proper
  nested : List.Forall₂ Rendering.AlignedWith supply.nested inner

/-- Offers to several clauses, aligned in each with fragments that are bound to all of them. -/
def Gathered {Part : Type} (all : List Part) (offers : Part → List Offer)
    (bound : List Fragment) : Prop :=
  ∃ gathered : Part → List Fragment,
    (∀ part ∈ all, Offered (offers part) (gathered part)) ∧ (all.flatMap gathered).Perm bound

namespace Gathered

variable {Part : Type} {all : List Part} {offers : Part → List Offer}

theorem nowhere (unbound : ∀ part ∈ all, Offered (offers part) []) : Gathered all offers [] := by
  refine ⟨fun _ => [], unbound, ?_⟩
  simp

theorem alone [DecidableEq Part] (part : Part) (present : part ∈ all) (distinct : all.Nodup)
    (bound : List Fragment) (own : Offered (offers part) bound)
    (others : ∀ other, other ≠ part → Offered (offers other) []) :
    Gathered all offers bound := by
  refine ⟨fun other => if other = part then bound else [], ?_, ?_⟩
  · intro other _
    by_cases same : other = part
    · subst same
      simpa using own
    · simpa [same] using others other same
  · have front := (List.perm_cons_erase present).flatMap_right
      fun other => if other = part then bound else []
    have rest : (all.erase part).flatMap (fun other => if other = part then bound else []) =
        [] := by
      apply List.flatMap_eq_nil_iff.mpr
      intro other member
      rw [if_neg]
      intro same
      rw [same] at member
      exact distinct.not_mem_erase member
    rw [List.flatMap_cons, rest, if_pos rfl, List.append_nil] at front
    exact front

theorem append {more : Part → List Offer} {bound rest : List Fragment}
    (first : Gathered all offers bound) (second : Gathered all more rest) :
    Gathered all (fun part => offers part ++ more part) (bound ++ rest) := by
  obtain ⟨gathered, offered, permuted⟩ := first
  obtain ⟨others, also, repermuted⟩ := second
  refine ⟨fun part => gathered part ++ others part, ?_, ?_⟩
  · intro part present
    exact (offered part present).append (also part present)
  · have apart := List.flatMap_append_perm all gathered others
    exact apart.symm.trans (permuted.append repermuted)

theorem perm {bound rest : List Fragment} (gathered : Gathered all offers bound)
    (same : bound.Perm rest) : Gathered all offers rest := by
  obtain ⟨parts, offered, permuted⟩ := gathered
  exact ⟨parts, offered, permuted.trans same⟩

end Gathered

theorem forall₂_append_left {First Second : Type} {Related : First → Second → Prop}
    (front back : List First) (others : List Second)
    (related : List.Forall₂ Related (front ++ back) others) :
    ∃ left right, others = left ++ right ∧ List.Forall₂ Related front left ∧
      List.Forall₂ Related back right := by
  induction front generalizing others with
  | nil => exact ⟨[], others, rfl, .nil, related⟩
  | cons first rest ih =>
    cases related with
    | cons head tail =>
      obtain ⟨left, right, split, before, behind⟩ := ih _ tail
      exact ⟨_ :: left, right, by rw [split, List.cons_append], .cons head before, behind⟩

/-- What calls bind one by one their history binds, clause by clause. -/
theorem gathered_run {Call Part : Type} (all : List Part) (offers : Part → Call → List Offer)
    (supply : Call → Supply)
    (each : ∀ made inner, (supply made).Borne inner →
      Gathered all (fun part => offers part made) ((supply made).bound ++ inner.flatten))
    (calls : List Call) (inner : List (List Fragment))
    (proper : ∀ handed ∈ (calls.map supply).flatMap Supply.texts, handed.Proper)
    (nested : List.Forall₂ Rendering.AlignedWith ((calls.map supply).flatMap Supply.nested)
      inner) :
    Gathered all (fun part => calls.flatMap (offers part))
      ((calls.map supply).flatMap Supply.bound ++ inner.flatten) := by
  induction calls generalizing inner with
  | nil =>
    cases nested
    exact .nowhere fun _ _ => .nil
  | cons made rest ih =>
    simp only [List.map_cons, List.flatMap_cons] at proper nested ⊢
    obtain ⟨left, right, rfl, before, behind⟩ := forall₂_append_left _ _ inner nested
    have head := each made left
      ⟨fun handed member => proper handed (List.mem_append_left _ member), before⟩
    have tail := ih right (fun handed member => proper handed (List.mem_append_right _ member))
      behind
    refine (head.append tail).perm ?_
    rw [List.flatten_append]
    simp only [List.append_assoc]
    refine List.Perm.append_left _ ?_
    simp only [← List.append_assoc]
    exact List.Perm.append_right _ List.perm_append_comm

section Calls

variable {bound : List Fragment} {inner : List (List Fragment)}

theorem offered_fragment (joint : String) (separator : Handed.Proper ⟨joint, 0⟩)
    (fragment : Fragment) (sound : fragment.Sound) :
    Offered [⟨some joint, .ok fragment⟩] [fragment] := by
  refine .single _ _ separator fun other given => ?_
  cases given
  exact .of_fragment fragment sound

theorem offered_text (joint : Option String) (text : String)
    (separator : Handed.Proper ⟨joint.getD "", 0⟩) (borne : (Supply.plain text).Borne inner) :
    Offered [.plain joint text] ((Supply.plain text).bound ++ inner.flatten) := by
  have proper := borne.proper ⟨text, 0⟩ (by simp [Supply.plain])
  cases borne.nested
  exact .plain _ text separator proper

theorem offered_texts (joint : String) (separator : Handed.Proper ⟨joint, 0⟩)
    (texts : List String) (proper : ∀ text ∈ texts, Handed.Proper ⟨text, 0⟩) :
    Offered (texts.map (.plain (some joint))) [] := by
  refine .unbound _ fun offer member => ?_
  obtain ⟨text, present, rfl⟩ := List.mem_map.mp member
  exact .plain _ text separator (proper text present)

theorem offered_binding (joint : String) (separator : Handed.Proper ⟨joint, 0⟩) (text : String)
    (params : List Value) (borne : (Supply.binding text params).Borne inner) :
    Offered [⟨some joint, .ok ⟨text, params⟩⟩]
      ((Supply.binding text params).bound ++ inner.flatten) := by
  have proper := borne.proper ⟨text, params.length⟩ (by simp [Supply.binding])
  cases borne.nested
  exact offered_fragment joint separator ⟨text, params⟩ proper

theorem borne_template (template : String) (query : Rendering)
    (borne : (Supply.template template query).Borne inner) :
    query.AlignedWith ((Supply.template template query).bound ++ inner.flatten) ∧
      Handed.Proper ⟨template, 1⟩ := by
  have proper := borne.proper ⟨template, 1⟩ (by simp [Supply.template])
  cases borne.nested with
  | cons head tail =>
    cases tail
    exact ⟨by simpa [Supply.template] using head, proper⟩

theorem offered_template (joint template : String) (separator : Handed.Proper ⟨joint, 0⟩)
    (query : Rendering) (borne : (Supply.template template query).Borne inner) :
    Offered [⟨some joint, substitute template query⟩]
      ((Supply.template template query).bound ++ inner.flatten) := by
  obtain ⟨aligned, proper⟩ := borne_template template query borne
  exact .single _ _ separator (substitute_aligned template query _ proper aligned)

theorem Condition.Call.offered (made : Condition.Call) (borne : made.supply.Borne inner) :
    Offered [made.offer] (made.supply.bound ++ inner.flatten) := by
  have operator : Handed.Proper ⟨made.operator.text, 0⟩ := by
    cases made.operator <;> exact ⟨rfl, rfl⟩
  cases made with
  | expression connective text params => exact offered_binding _ operator text params borne
  | group connective nested =>
    cases borne.nested with
    | cons head tail =>
      cases tail
      refine .single _ _ operator ?_
      simpa [supply, offer, fragment] using Rendering.AlignedWith.fragment head
  | query connective template rendering =>
    exact offered_template _ template operator rendering borne

end Calls

theorem proper_of_forall (text : String)
    (ordinary : ∀ char ∈ text.toList, Text.isQuote char = false ∧ char ≠ '?') :
    Handed.Proper ⟨text, 0⟩ := by
  have scanned : ∀ chars : List Char,
      (∀ char ∈ chars, Text.isQuote char = false ∧ char ≠ '?') →
        chars.foldl Text.Quoting.step .plain = .plain ∧
          Text.Quoting.plain.placeholders chars = 0 := by
    intro chars each
    induction chars with
    | nil => exact ⟨rfl, rfl⟩
    | cons char rest ih =>
      obtain ⟨unquoted, slotless⟩ := each char List.mem_cons_self
      obtain ⟨closed, counted⟩ := ih fun other member => each other (List.mem_cons_of_mem _ member)
      have stays : Text.Quoting.plain.step char = .plain := by
        simp [Text.Quoting.step, unquoted]
      refine ⟨?_, ?_⟩
      · rw [List.foldl_cons, stays]
        exact closed
      · rw [Text.Quoting.placeholders_cons, stays, counted, if_neg]
        intro both
        exact slotless both.2
  obtain ⟨closed, counted⟩ := scanned text.toList ordinary
  exact ⟨closed, counted⟩

theorem isDigit_of_count (count : UInt64) (char : Char)
    (member : char ∈ (toString count.toNat).toList) : char.isDigit = true := by
  apply Nat.isDigit_of_mem_toDigits (b := 10) (n := count.toNat) (by decide) (by decide)
  simpa using member

theorem isQuote_of_isDigit (char : Char) (digit : char.isDigit = true) :
    Text.isQuote char = false := by
  by_contra quoted
  rw [Bool.not_eq_false] at quoted
  rcases Text.eq_of_isQuote char quoted with rfl | rfl | rfl <;> exact absurd digit (by decide)

theorem proper_count (count : UInt64) : Handed.Proper ⟨toString count.toNat, 0⟩ := by
  apply proper_of_forall
  intro char member
  have digit := isDigit_of_count count char member
  refine ⟨isQuote_of_isDigit char digit, ?_⟩
  intro slot
  rw [slot] at digit
  exact absurd digit (by decide)

theorem proper_space : Handed.Proper ⟨" ", 0⟩ := ⟨rfl, rfl⟩

theorem proper_slot : Handed.Proper ⟨"?", 1⟩ := ⟨rfl, rfl⟩

theorem proper_assigned : Handed.Proper ⟨" = ?", 1⟩ := ⟨rfl, rfl⟩

namespace UnionStatement

theorem offered_branch (kind : UnionKind) (query : Rendering) (bound : List Fragment)
    (aligned : query.AlignedWith bound) : Offered (branchOffers kind query) bound := by
  have operator : Handed.Proper ⟨kind.operator, 0⟩ := by
    cases kind <;> exact ⟨rfl, rfl⟩
  unfold branchOffers branch?
  cases rendered : query.text with
  | error error => exact .single _ _ operator fun fragment given => nomatch given
  | ok text =>
    obtain ⟨sql, nested⟩ := query.nested_of_text text rendered
    by_cases empty : text = ""
    · simp only [bind, Except.bind, pure, Except.pure, String.isEmpty_iff, empty, if_true]
      rw [empty] at rendered
      exact .empty _ (aligned "" rendered).of_empty.2
    · simp only [bind, Except.bind, pure, Except.pure, nested, String.isEmpty_iff, empty, if_false]
      refine .single _ _ operator fun fragment given => ?_
      cases given
      exact aligned.nested sql nested

theorem gathered_call (made : Call) (inner : List (List Fragment))
    (borne : made.supply.Borne inner) :
    Gathered Part.all (fun part => Call.offers part made) (made.supply.bound ++ inner.flatten) := by
  cases made with
  | branch kind query =>
    refine .alone .branches (Part.mem_all _) Part.nodup_all _ ?_ ?_
    · cases borne.nested with
      | cons head tail =>
        cases tail
        simpa [Call.supply, Call.offers] using offered_branch kind query _ head
    · intro other elsewhere
      cases other <;> first | contradiction | exact .nil
  | orderBy text =>
    refine .alone .ordering (Part.mem_all _) Part.nodup_all _ ?_ ?_
    · exact offered_text (some ", ") text ⟨rfl, rfl⟩ borne
    · intro other elsewhere
      cases other <;> first | contradiction | exact .nil
  | offset count =>
    refine .alone .offset (Part.mem_all _) Part.nodup_all _ ?_ ?_
    · cases borne.nested
      exact .plain none _ ⟨rfl, rfl⟩ (proper_count count)
    · intro other elsewhere
      cases other <;> first | contradiction | exact .nil
  | limit count =>
    refine .alone .limit (Part.mem_all _) Part.nodup_all _ ?_ ?_
    · cases borne.nested
      exact .plain none _ ⟨rfl, rfl⟩ (proper_count count)
    · intro other elsewhere
      cases other <;> first | contradiction | exact .nil

end UnionStatement

namespace InsertStatement

theorem gathered_set (column text : String) (params : List Value) (made : Call)
    (same : ∀ part, Call.offers part made = Call.offers part (.setExpression column text params))
    (named : Handed.Proper ⟨column, 0⟩) (sound : Fragment.Sound ⟨text, params⟩) :
    Gathered Part.all (fun part => Call.offers part made) [⟨text, params⟩] := by
  simp only [same]
  refine .alone .values (Part.mem_all _) Part.nodup_all _ ?_ ?_
  · exact offered_fragment ", " ⟨rfl, rfl⟩ ⟨text, params⟩ sound
  · intro other elsewhere
    cases other with
    | values => contradiction
    | columns => exact .plain (some ", ") column ⟨rfl, rfl⟩ named
    | _ => exact .nil

theorem gathered_call (made : Call) (inner : List (List Fragment))
    (borne : made.supply.Borne inner) :
    Gathered Part.all (fun part => Call.offers part made) (made.supply.bound ++ inner.flatten) := by
  cases made with
  | table text =>
    refine .alone .table (Part.mem_all _) Part.nodup_all _ ?_ ?_
    · exact offered_text none text ⟨rfl, rfl⟩ borne
    · intro other elsewhere
      cases other <;> first | contradiction | exact .nil
  | set column value =>
    have named := borne.proper ⟨column, 0⟩ List.mem_cons_self
    cases borne.nested
    refine gathered_set column "?" [value] _ ?_ named proper_slot
    intro part
    cases part <;> rfl
  | setOptional column value? =>
    cases value? with
    | none =>
      cases borne.nested
      refine .nowhere fun part _ => ?_
      cases part <;> exact .nil
    | some value =>
      have named := borne.proper ⟨column, 0⟩ List.mem_cons_self
      cases borne.nested
      refine gathered_set column "?" [value] _ ?_ named proper_slot
      intro part
      cases part <;> rfl
  | setExpression column text params =>
    have named := borne.proper ⟨column, 0⟩ List.mem_cons_self
    have sound := borne.proper ⟨text, params.length⟩ (List.mem_cons_of_mem _ List.mem_cons_self)
    cases borne.nested
    exact gathered_set column text params _ (fun _ => rfl) named sound
  | columns texts =>
    refine .alone .columns (Part.mem_all _) Part.nodup_all _ ?_ ?_
    · have proper : ∀ text ∈ texts, Handed.Proper ⟨text, 0⟩ := fun text member =>
        borne.proper _ (List.mem_map.mpr ⟨text, member, rfl⟩)
      cases borne.nested
      exact offered_texts ", " ⟨rfl, rfl⟩ texts proper
    · intro other elsewhere
      cases other <;> first | contradiction | exact .nil
  | defaultValues =>
    refine .alone .defaults (Part.mem_all _) Part.nodup_all _ ?_ ?_
    · cases borne.nested
      exact .plain none _ ⟨rfl, rfl⟩ ⟨rfl, rfl⟩
    · intro other elsewhere
      cases other <;> first | contradiction | exact .nil
  | query rendering =>
    refine .alone .query (Part.mem_all _) Part.nodup_all _ ?_ ?_
    · cases borne.nested with
      | cons head tail =>
        cases tail
        refine .single _ _ ⟨rfl, rfl⟩ ?_
        simpa [Call.supply] using Rendering.AlignedWith.fragment head
    · intro other elsewhere
      cases other <;> first | contradiction | exact .nil
  | returning text =>
    refine .alone .returning (Part.mem_all _) Part.nodup_all _ ?_ ?_
    · exact offered_text (some ", ") text ⟨rfl, rfl⟩ borne
    · intro other elsewhere
      cases other <;> first | contradiction | exact .nil

end InsertStatement

namespace UpdateStatement

theorem gathered_set (column : String) (value : Value) (made : Call)
    (same : ∀ part, Call.offers part made =
      Call.offers part (.assignment (column ++ " = ?") [value]))
    (named : Handed.Proper ⟨column, 0⟩) :
    Gathered Part.all (fun part => Call.offers part made) [⟨column ++ " = ?", [value]⟩] := by
  simp only [same]
  have sound : Fragment.Sound ⟨column ++ " = ?", [value]⟩ :=
    Fragment.Sound.append ⟨column, []⟩ ⟨" = ?", [value]⟩ named proper_assigned
  refine .alone .assignments (Part.mem_all _) Part.nodup_all _ ?_ ?_
  · exact offered_fragment ", " ⟨rfl, rfl⟩ _ sound
  · intro other elsewhere
    cases other <;> first | contradiction | exact .nil

theorem gathered_call (made : Call) (inner : List (List Fragment))
    (borne : made.supply.Borne inner) :
    Gathered Part.all (fun part => Call.offers part made) (made.supply.bound ++ inner.flatten) := by
  cases made with
  | table text =>
    refine .alone .table (Part.mem_all _) Part.nodup_all _ ?_ ?_
    · exact offered_text none text ⟨rfl, rfl⟩ borne
    · intro other elsewhere
      cases other <;> first | contradiction | exact .nil
  | set column value =>
    have named := borne.proper ⟨column, 0⟩ List.mem_cons_self
    cases borne.nested
    refine gathered_set column value _ ?_ named
    intro part
    cases part <;> rfl
  | setOptional column value? =>
    cases value? with
    | none =>
      cases borne.nested
      refine .nowhere fun part _ => ?_
      cases part <;> exact .nil
    | some value =>
      have named := borne.proper ⟨column, 0⟩ List.mem_cons_self
      cases borne.nested
      refine gathered_set column value _ ?_ named
      intro part
      cases part <;> rfl
  | assignment text params =>
    refine .alone .assignments (Part.mem_all _) Part.nodup_all _ ?_ ?_
    · exact offered_binding ", " ⟨rfl, rfl⟩ text params borne
    · intro other elsewhere
      cases other <;> first | contradiction | exact .nil
  | condition call =>
    refine .alone .condition (Part.mem_all _) Part.nodup_all _ ?_ ?_
    · exact call.offered borne
    · intro other elsewhere
      cases other <;> first | contradiction | exact .nil
  | returning text =>
    refine .alone .returning (Part.mem_all _) Part.nodup_all _ ?_ ?_
    · exact offered_text (some ", ") text ⟨rfl, rfl⟩ borne
    · intro other elsewhere
      cases other <;> first | contradiction | exact .nil

end UpdateStatement

namespace DeleteStatement

theorem gathered_call (made : Call) (inner : List (List Fragment))
    (borne : made.supply.Borne inner) :
    Gathered Part.all (fun part => Call.offers part made) (made.supply.bound ++ inner.flatten) := by
  cases made with
  | table text =>
    refine .alone .table (Part.mem_all _) Part.nodup_all _ ?_ ?_
    · exact offered_text none text ⟨rfl, rfl⟩ borne
    · intro other elsewhere
      cases other <;> first | contradiction | exact .nil
  | condition call =>
    refine .alone .condition (Part.mem_all _) Part.nodup_all _ ?_ ?_
    · exact call.offered borne
    · intro other elsewhere
      cases other <;> first | contradiction | exact .nil
  | returning text =>
    refine .alone .returning (Part.mem_all _) Part.nodup_all _ ?_ ?_
    · exact offered_text (some ", ") text ⟨rfl, rfl⟩ borne
    · intro other elsewhere
      cases other <;> first | contradiction | exact .nil

end DeleteStatement

namespace SelectStatement

theorem offered_call (made : Call) (inner : List (List Fragment))
    (borne : made.supply.Borne inner) :
    Offered made.offers (made.supply.bound ++ inner.flatten) := by
  cases made with
  | column text => exact offered_text (some ", ") text ⟨rfl, rfl⟩ borne
  | columns texts =>
    have proper : ∀ text ∈ texts, Handed.Proper ⟨text, 0⟩ := fun text member =>
      borne.proper _ (List.mem_map.mpr ⟨text, member, rfl⟩)
    cases borne.nested
    exact offered_texts ", " ⟨rfl, rfl⟩ texts proper
  | distinct =>
    cases borne.nested
    exact .plain none _ ⟨rfl, rfl⟩ ⟨rfl, rfl⟩
  | all =>
    cases borne.nested
    exact .plain none _ ⟨rfl, rfl⟩ ⟨rfl, rfl⟩
  | source table => exact offered_text (some ", ") table ⟨rfl, rfl⟩ borne
  | sourceQuery template query =>
    exact offered_template ", " template ⟨rfl, rfl⟩ query borne
  | join kind text params =>
    have sound := borne.proper ⟨text, params.length⟩ (List.mem_singleton_self _)
    cases borne.nested
    refine .single _ _ proper_space fun fragment given => ?_
    cases given
    by_cases empty : text = ""
    · subst empty
      exact .of_fragment ⟨"", params⟩ sound
    · have keyword : Handed.Proper ⟨kind.keyword ++ " ", 0⟩ := by
        cases kind <;> exact ⟨rfl, rfl⟩
      rw [joinFragment_filled kind text params empty]
      exact (Aligned.of_fragment ⟨text, params⟩ sound).behind _ keyword
  | joinQuery template query =>
    obtain ⟨aligned, proper⟩ := borne_template template query borne
    refine .single _ _ proper_space fun fragment given => ?_
    obtain ⟨inside, substituted, rfl⟩ := (joinQuery_eq_ok_iff template query fragment).mp given
    have filled := substitute_aligned template query _ proper aligned inside substituted
    exact filled.behind _ ⟨rfl, rfl⟩
  | condition call => exact call.offered borne
  | groupBy text => exact offered_text (some ", ") text ⟨rfl, rfl⟩ borne
  | groupCondition call => exact call.offered borne
  | orderBy text => exact offered_text (some ", ") text ⟨rfl, rfl⟩ borne
  | offset count =>
    cases borne.nested
    exact .plain none _ ⟨rfl, rfl⟩ (proper_count count)
  | limit count =>
    cases borne.nested
    exact .plain none _ ⟨rfl, rfl⟩ (proper_count count)
  | withoutOffset =>
    cases borne.nested
    exact .nil
  | withoutLimit =>
    cases borne.nested
    exact .nil

end SelectStatement

end SqlCompose
