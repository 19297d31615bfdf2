import SqlCompose.Proofs.CallAlignment

/-! In a statement built from a tree of builders every parameter belongs to the placeholder that its
own call brought, wherever in the text that is. -/
namespace SqlCompose

theorem bearing_map {Part : Type} (all : List Part) (ledger : Part → Ledger)
    (gathered : Part → List Fragment)
    (bearing : ∀ part ∈ all, (ledger part).Bearing (gathered part)) :
    List.Forall₂ (fun ledger bound => ledger.Bearing bound) (all.map ledger)
      (all.map gathered) := by
  induction all with
  | nil => exact .nil
  | cons part rest ih =>
    exact .cons (bearing part List.mem_cons_self)
      (ih fun other member => bearing other (List.mem_cons_of_mem _ member))

/-- The clauses of a statement as they are laid out: each holds what the calls offered to it, and what
stands around it neither opens a literal nor has a placeholder. -/
def Framed {Part Made : Type} (all : List Part) (offers : Part → Made → List Offer)
    (calls : List Made) (ledgers : List Ledger) : Prop :=
  ∃ shown : Part → Ledger, ledgers = all.map shown ∧ ∀ part,
    (shown part).offers = calls.flatMap (offers part) ∧
      Handed.Proper ⟨(shown part).lead, 0⟩ ∧ Handed.Proper ⟨(shown part).trail, 0⟩

/-- A statement without misuse is aligned with what its calls bind if each call is, over all the
clauses that it offers something to. A misuse in a clause is named by a text of its own. -/
theorem Framed.aligned {Part Made : Type} {all : List Part} {offers : Part → Made → List Offer}
    {calls : List Made} {ledgers : List Ledger} (framed : Framed all offers calls ledgers)
    (supply : Made → Supply)
    (each : ∀ made inner, (supply made).Borne inner →
      Gathered all (fun part => offers part made) ((supply made).bound ++ inner.flatten))
    (inner : List (List Fragment))
    (proper : ∀ handed ∈ (calls.map supply).flatMap Supply.texts, handed.Proper)
    (nested : List.Forall₂ Rendering.AlignedWith ((calls.map supply).flatMap Supply.nested) inner)
    (named : Part → String)
    (sound : (all.map fun part =>
      Offer.firstMisuse? (named part) [] (calls.flatMap (offers part))).findSome? id = none) :
    Aligned (Ledger.layout ledgers) (ledgers.flatMap Ledger.params)
      ((calls.map supply).flatMap Supply.bound ++ inner.flatten) := by
  obtain ⟨shown, rfl, frames⟩ := framed
  obtain ⟨parts, offered, permuted⟩ := gathered_run all offers supply each calls inner proper nested
  have bearing := bearing_map all shown parts fun part present => by
    obtain ⟨held, lead, trail⟩ := frames part
    refine ⟨lead, trail, ?_, ?_⟩
    · rw [held]
      exact offered part present
    · rw [held]
      exact Offer.content_of_sound _ _ _ (sound_of_misuses all _ sound part present)
  refine (Ledger.layout_aligned _ _ bearing).perm ?_
  rw [← List.flatMap_def]
  exact permuted

theorem UnionStatement.Part.lead_proper (part : Part) : Handed.Proper ⟨part.lead, 0⟩ := by
  cases part <;> exact ⟨rfl, rfl⟩

theorem InsertStatement.Part.lead_proper (part : Part) : Handed.Proper ⟨part.lead, 0⟩ := by
  cases part <;> exact ⟨rfl, rfl⟩

theorem InsertStatement.Part.trail_proper (part : Part) : Handed.Proper ⟨part.trail, 0⟩ := by
  cases part <;> exact ⟨rfl, rfl⟩

theorem UpdateStatement.Part.lead_proper (part : Part) : Handed.Proper ⟨part.lead, 0⟩ := by
  cases part <;> exact ⟨rfl, rfl⟩

theorem DeleteStatement.Part.lead_proper (part : Part) : Handed.Proper ⟨part.lead, 0⟩ := by
  cases part <;> exact ⟨rfl, rfl⟩

theorem SelectStatement.Part.lead_proper (part : Part) : Handed.Proper ⟨part.lead, 0⟩ := by
  cases part <;> exact ⟨rfl, rfl⟩

theorem proper_heading (headed : Bool) : Handed.Proper ⟨if headed then "WHERE " else "", 0⟩ := by
  cases headed <;> exact ⟨rfl, rfl⟩

theorem proper_empty : Handed.Proper ⟨"", 0⟩ := ⟨rfl, rfl⟩

theorem UnionStatement.framed (calls : List Call) :
    Framed Part.all Call.offers calls (ledgers calls) :=
  ⟨ledger calls, rfl, fun part => ⟨rfl, part.lead_proper, proper_empty⟩⟩

theorem InsertStatement.framed (calls : List Call) :
    Framed Part.all Call.offers calls (ledgers calls) :=
  ⟨ledger calls, rfl, fun part => ⟨rfl, part.lead_proper, part.trail_proper⟩⟩

theorem UpdateStatement.framed (calls : List Call) :
    Framed Part.all Call.offers calls (ledgers calls) := by
  let headed := given calls .table || given calls .assignments
  refine ⟨fun
    | .condition => { ledger calls .condition with lead := if headed then "WHERE " else "" }
    | part => ledger calls part, rfl, fun part => ?_⟩
  cases part with
  | condition => exact ⟨rfl, proper_heading headed, proper_empty⟩
  | table => exact ⟨rfl, Part.lead_proper .table, proper_empty⟩
  | assignments => exact ⟨rfl, Part.lead_proper .assignments, proper_empty⟩
  | returning => exact ⟨rfl, Part.lead_proper .returning, proper_empty⟩

theorem DeleteStatement.framed (calls : List Call) :
    Framed Part.all Call.offers calls (ledgers calls) := by
  refine ⟨fun
    | .condition =>
      { ledger calls .condition with lead := if given calls .table then "WHERE " else "" }
    | part => ledger calls part, rfl, fun part => ?_⟩
  cases part with
  | condition => exact ⟨rfl, proper_heading (given calls .table), proper_empty⟩
  | table => exact ⟨rfl, Part.lead_proper .table, proper_empty⟩
  | returning => exact ⟨rfl, Part.lead_proper .returning, proper_empty⟩

theorem Condition.framed (calls : List Call) :
    Framed [()] (fun _ made => [made.offer]) calls [ledger calls] :=
  ⟨fun _ => ledger calls, rfl, fun _ => ⟨List.map_eq_flatMap, proper_opening, proper_closing⟩⟩

theorem Condition.gathered_call (made : Call) (inner : List (List Fragment))
    (borne : made.supply.Borne inner) :
    Gathered [()] (fun _ => [made.offer]) (made.supply.bound ++ inner.flatten) :=
  .alone () List.mem_cons_self (by simp) _ (made.offered borne) fun _ elsewhere =>
    absurd rfl elsewhere

namespace SelectStatement

def Part.texted : List Part :=
  [.columns, .source, .joins, .condition, .grouping, .groupCondition, .ordering]

theorem offered_flatMap (part : Part) (texted : part ∈ Part.texted) (calls : List Call) :
    offered part calls =
      calls.flatMap fun made => if made.part = part then made.offers else [] := by
  induction calls using List.reverseRecOn with
  | nil => rfl
  | append_singleton before made ih =>
    rw [offered_snoc, List.flatMap_append, List.flatMap_singleton, ih]
    by_cases own : made.part = part
    · subst own
      have kept : made.clears = false := by
        cases made <;> first | rfl | exact absurd texted (by decide)
      simp [kept]
    · simp [own]

theorem supply_untexted (made : Call) (untexted : made.part ∉ Part.texted) : made.supply = {} := by
  cases made <;> first | rfl | exact absurd (by simp [Call.part, Part.texted]) untexted

theorem gathered_call (made : Call) (inner : List (List Fragment))
    (borne : made.supply.Borne inner) :
    Gathered Part.texted (fun part => if made.part = part then made.offers else [])
      (made.supply.bound ++ inner.flatten) := by
  by_cases texted : made.part ∈ Part.texted
  · refine .alone made.part texted (by decide) _ ?_ ?_
    · rw [if_pos rfl]
      exact offered_call made inner borne
    · intro other elsewhere
      rw [if_neg (Ne.symm elsewhere)]
      exact .nil
  · have bare := supply_untexted made texted
    rw [bare] at borne ⊢
    cases borne.nested
    refine .nowhere fun part present => ?_
    rw [if_neg]
    · exact .nil
    · intro own
      exact texted (own ▸ present)

theorem offered_untexted (part : Part) (untexted : part ∉ Part.texted) (calls : List Call) :
    Offered (offered part calls) [] := by
  refine .unbound _ fun offer member => ?_
  obtain ⟨_, made, _, _, rfl, _, offers, _⟩ := (mem_offered part calls offer).mp member
  have bare := supply_untexted made untexted
  have borne : made.supply.Borne [] := by
    rw [bare]
    exact ⟨by simp, .nil⟩
  have whole := offered_call made [] borne
  rw [bare] at whole
  cases made with
  | distinct => exact List.mem_singleton.mp offers ▸ whole
  | all => exact List.mem_singleton.mp offers ▸ whole
  | offset count => exact List.mem_singleton.mp offers ▸ whole
  | limit count => exact List.mem_singleton.mp offers ▸ whole
  | withoutOffset => cases offers
  | withoutLimit => cases offers
  | _ => exact absurd (by simp [Call.part, Part.texted]) untexted

theorem quantifierWord_proper (calls : List Call)
    (sound : (ledger calls .quantifier).misuse? = none) :
    Handed.Proper ⟨quantifierWord calls, 0⟩ := by
  have bearing : (ledger calls .quantifier).Bearing [] :=
    ⟨proper_empty, proper_empty, offered_untexted .quantifier (by decide) calls,
      Offer.content_of_sound _ _ _ sound⟩
  unfold quantifierWord
  cases found : (ledger calls .quantifier).text? with
  | none => exact proper_empty
  | some word =>
    have aligned := bearing.aligned
    rw [found] at aligned
    exact (Aligned.ahead aligned " " proper_space).proper_of_unbound

theorem aligned (inner : List (List Fragment)) (calls : List Call)
    (proper : ∀ handed ∈ (calls.map Call.supply).flatMap Supply.texts, handed.Proper)
    (nested : List.Forall₂ Rendering.AlignedWith ((calls.map Call.supply).flatMap Supply.nested)
      inner)
    (sound : (misuses calls).findSome? id = none) :
    Aligned (Ledger.layout (ledgers calls)) ((ledgers calls).flatMap Ledger.params)
      ((calls.map Call.supply).flatMap Supply.bound ++ inner.flatten) := by
  have unspoilt (part : Part) : (ledger calls part).misuse? = none :=
    sound_of_misuses Part.all _ sound part part.mem_all
  have contents (part : Part) :
      ∀ offer ∈ offered part calls, ∃ fragment, offer.content = .ok fragment :=
    Offer.content_of_sound _ _ _ (unspoilt part)
  obtain ⟨parts, offered, permuted⟩ := gathered_run Part.texted
    (fun part made => if made.part = part then made.offers else []) Call.supply gathered_call calls
    inner proper nested
  have own (part : Part) (lead : String) (heading : Handed.Proper ⟨lead, 0⟩)
      (texted : part ∈ Part.texted) :
      Ledger.Bearing ⟨lead, "", SelectStatement.offered part calls⟩ (parts part) := by
    refine ⟨heading, proper_empty, ?_, contents part⟩
    rw [offered_flatMap part texted]
    exact offered part texted
  have counted (part : Part) (untexted : part ∉ Part.texted) : (ledger calls part).Bearing [] :=
    ⟨Part.lead_proper part, proper_empty, offered_untexted part untexted calls, contents part⟩
  have selecting : Handed.Proper ⟨"SELECT " ++ quantifierWord calls, 0⟩ := by
    have word := quantifierWord_proper calls (unspoilt .quantifier)
    exact ((Aligned.of_plain _ word).behind _ (Part.lead_proper .columns)).proper_of_unbound
  refine (Ledger.layout_aligned (ledgers calls)
    [parts .columns, parts .source, parts .joins, parts .condition, parts .grouping,
      parts .groupCondition, parts .ordering, [], []] ?_).perm ?_
  · exact .cons (own .columns _ selecting (by decide))
      (.cons (own .source _ (Part.lead_proper .source) (by decide))
      (.cons (own .joins _ (Part.lead_proper .joins) (by decide))
      (.cons (own .condition _ (proper_heading _) (by decide))
      (.cons (own .grouping _ (Part.lead_proper .grouping) (by decide))
      (.cons (own .groupCondition _ (Part.lead_proper .groupCondition) (by decide))
      (.cons (own .ordering _ (Part.lead_proper .ordering) (by decide))
      (.cons (counted .offset (by decide))
      (.cons (counted .limit (by decide)) .nil))))))))
  · simpa [Part.texted] using permuted

end SelectStatement

theorem History.aligned (inner : List (List Fragment)) (history : History)
    (proper : ∀ handed ∈ history.supplies.flatMap Supply.texts, handed.Proper)
    (nested : List.Forall₂ Rendering.AlignedWith history.nested inner) :
    history.rendering.AlignedWith (history.supplies.flatMap Supply.bound ++ inner.flatten) := by
  intro text rendered
  rw [text_rendering, outcome_ok_iff] at rendered
  obtain ⟨sound, rfl⟩ := rendered
  rw [params_rendering]
  cases history with
  | select calls => exact SelectStatement.aligned inner calls proper nested sound
  | union calls =>
    exact (UnionStatement.framed calls).aligned _ UnionStatement.gathered_call inner proper nested
      (fun part => Text.trimmed part.lead) sound
  | insert calls =>
    exact (InsertStatement.framed calls).aligned _ InsertStatement.gathered_call inner proper nested
      (fun part => Text.trimmed part.lead) sound
  | update calls =>
    exact (UpdateStatement.framed calls).aligned _ UpdateStatement.gathered_call inner proper nested
      (fun part => Text.trimmed part.lead) sound
  | delete calls =>
    exact (DeleteStatement.framed calls).aligned _ DeleteStatement.gathered_call inner proper nested
      (fun part => Text.trimmed part.lead) sound
  | condition calls =>
    refine (Condition.framed calls).aligned _ Condition.gathered_call inner proper nested
      (fun _ => Text.trimmed "(") ?_
    simp only [← List.map_eq_flatMap]
    exact sound

namespace Tree

theorem aligned {rendering : Rendering} (tree : Tree rendering)
    (proper : ∀ handed ∈ tree.texts, handed.Proper) : rendering.AlignedWith tree.bound := by
  induction tree with
  | node history nested ih =>
    have inside : List.Forall₂ Rendering.AlignedWith history.nested
        (List.ofFn fun place => (nested place).bound) := by
      apply List.forall₂_iff_get.mpr
      refine ⟨by simp, fun index bounded also => ?_⟩
      have aligned := ih ⟨index, bounded⟩ fun handed member => proper handed ?_
      · simpa using aligned
      · refine List.mem_append_right _ (List.mem_flatten.mpr ⟨_, ?_, member⟩)
        exact List.mem_ofFn.mpr ⟨⟨index, bounded⟩, rfl⟩
    exact history.aligned _ (fun handed member => proper handed (List.mem_append_left _ member))
      inside

/-- A statement built from a tree has as many placeholders as parameters. It falls into pieces of
which those with parameters are the fragments that the calls of the tree bind, and the parameter at
every position belongs to the placeholder at this position, in the piece that the parameter was
given with. -/
theorem build_aligned {rendering : Rendering} (tree : Tree rendering)
    (proper : ∀ handed ∈ tree.texts, handed.Proper) (config : RenderConfig)
    (statement : Statement) (event : LogEvent)
    (built : rendering.build config = .ok (statement, event)) :
    statement.validate = .ok () ∧
    ∃ pieces : List Fragment,
      statement.sql = String.join (pieces.map Fragment.text) ∧
      statement.params = pieces.flatMap Fragment.params ∧
      (pieces.filter Fragment.binds).Perm (tree.bound.filter Fragment.binds) ∧
      ∀ position < statement.params.length,
        ∃ before piece after index place, pieces = before ++ piece :: after ∧
          position = (before.flatMap Fragment.params).length + index ∧
          statement.params[position]? = piece.params[index]? ∧
          (Text.Quoting.plain.marks 0 piece.text.toList)[index]? = some place ∧
          (Text.Quoting.plain.marks 0 statement.sql.toList)[position]? =
            some ((String.join (before.map Fragment.text)).toList.length + place) := by
  have rendered : rendering.text = .ok statement.sql ∧ statement.params = rendering.params := by
    unfold Rendering.build Rendering.statement at built
    cases text : rendering.text with
    | error error =>
      rw [text] at built
      cases built
    | ok sql =>
      rw [text] at built
      cases built
      exact ⟨rfl, rfl⟩
  obtain ⟨text, params⟩ := rendered
  obtain ⟨pieces, sound, joined, permuted⟩ := tree.aligned proper _ text
  have sql : statement.sql = (Fragment.joined pieces).text := by rw [joined]
  have bound : statement.params = (Fragment.joined pieces).params := by rw [joined, params]
  refine ⟨?_, pieces, sql, bound, permuted, ?_⟩
  · have counted := (Fragment.joined_sound pieces sound).counted
    unfold Statement.validate Statement.placeholderCount checkParameterCount
    rw [sql, bound]
    exact if_pos counted
  · intro position bounded
    rw [bound] at bounded
    obtain ⟨before, piece, after, index, split, within, placed⟩ :=
      Fragment.piece_of_param pieces position bounded
    rw [split] at sound
    obtain ⟨place, mark, whole⟩ := Fragment.marks_joined before after piece sound index within
    refine ⟨before, piece, after, index, place, split, placed, ?_, mark, ?_⟩
    · rw [bound, split, placed, Fragment.joined_append,
        List.getElem?_append_right (Nat.le_add_right _ _), Nat.add_sub_cancel_left]
      exact List.getElem?_append_left within
    · rw [sql, split, placed]
      exact whole

/-- A query with a parameter of its own is nested behind a condition that has one. -/
theorem build_aligned_nested_source :
    ∃ pieces : List Fragment,
      "SELECT b FROM (SELECT b FROM t WHERE c = ?) AS s WHERE d = '?' OR e = ?" =
        String.join (pieces.map Fragment.text) ∧
      [.bool false, .bool true] = pieces.flatMap Fragment.params := by
  let inner : History := .select [.column "b", .source "t",
    .condition (.expression .and "c = ?" [.bool false])]
  let outer : History := .select [.condition (.expression .or "d = '?' OR e = ?" [.bool true]),
    .column "b", .sourceQuery "? AS s" inner.rendering]
  let tree : Tree outer.rendering := .node outer fun
    | ⟨0, _⟩ => .node inner fun place => place.elim0
  let statement : Statement :=
    ⟨"SELECT b FROM (SELECT b FROM t WHERE c = ?) AS s WHERE d = '?' OR e = ?",
      [.bool false, .bool true]⟩
  have texts : tree.texts = [⟨"d = '?' OR e = ?", 1⟩, ⟨"b", 0⟩, ⟨"? AS s", 1⟩, ⟨"b", 0⟩, ⟨"t", 0⟩,
    ⟨"c = ?", 1⟩] := rfl
  have proper : ∀ handed ∈ tree.texts, handed.Proper := by
    rw [texts]
    decide
  have text : outer.rendering.text = .ok statement.sql := by
    have shown : outer.rendering.text.toOption = some statement.sql := by
      decide +kernel +zetaReduce
    cases rendered : outer.rendering.text with
    | error error => simp [rendered, Except.toOption] at shown
    | ok sql => simpa [rendered, Except.toOption] using shown
  have params : outer.rendering.params = statement.params := by
    simp only [outer, History.rendering]
    rfl
  have built : outer.rendering.build {} = .ok (statement, RenderConfig.event {} statement) := by
    simp only [Rendering.build, Rendering.statement, text, params, Except.map]
  obtain ⟨_, pieces, sql, bound, _⟩ := tree.build_aligned proper {} statement _ built
  exact ⟨pieces, sql, bound⟩

end Tree

end SqlCompose
