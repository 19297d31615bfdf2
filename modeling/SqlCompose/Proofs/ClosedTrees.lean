import SqlCompose.Proofs.ClosedCalls
import SqlCompose.Proofs.Lexing

/-! A statement built from closed texts is closed, however deep its builders are nested, and inside
another statement it is read as one group. -/
namespace SqlCompose

theorem closed_joined (links : List Link)
    (closed : ∀ link ∈ links, Text.Closed link.joint.toList ∧ Text.Closed link.text.toList) :
    Text.Closed (Link.joined links).toList := by
  induction links using List.reverseRecOn with
  | nil => exact .nil
  | append_singleton before last ih =>
    have own := closed last (by simp)
    by_cases first : before = []
    · subst first
      simpa [Link.joined] using own.2
    · have front := ih fun link member => closed link (List.mem_append_left _ member)
      rw [Link.joined_snoc before last first, String.toList_append, String.toList_append]
      exact (front.append _ _ own.1).append _ _ own.2

/-- Texts between which every closed text stands in a closed one. -/
def Enclosing (lead trail : String) : Prop :=
  ∀ text, Text.Closed text → Text.Closed (lead.toList ++ text ++ trail.toList)

structure Ledger.Closed (ledger : Ledger) : Prop where
  enclosing : Enclosing ledger.lead ledger.trail
  offers : ∀ offer ∈ ledger.offers, offer.Closed

theorem Ledger.Closed.joined (ledger : Ledger) (closed : ledger.Closed) :
    Text.Closed (Link.joined (Offer.links ledger.offers)).toList := by
  apply closed_joined
  intro link member
  obtain ⟨offer, held, found⟩ := List.mem_filterMap.mp member
  obtain ⟨fragment, content, _, rfl⟩ := (Offer.link?_eq_some_iff offer link).mp found
  have own := closed.offers offer held
  exact ⟨own.joint, own.content fragment content⟩

theorem Ledger.Closed.text (ledger : Ledger) (closed : ledger.Closed) (text : String)
    (given : ledger.text? = some text) : Text.Closed text.toList := by
  have filled : Offer.links ledger.offers ≠ [] := by
    intro empty
    rw [text?_of_nil ledger empty] at given
    cases given
  rw [text?_of_ne_nil ledger filled, Option.some.injEq] at given
  rw [← given, String.toList_append, String.toList_append]
  exact closed.enclosing _ closed.joined

theorem Ledger.closed_layout (ledgers : List Ledger) (closed : ∀ ledger ∈ ledgers, ledger.Closed) :
    Text.Closed (layout ledgers).toList := by
  have texts : ∀ text ∈ ledgers.filterMap text?, Text.Closed text.toList := by
    intro text member
    obtain ⟨ledger, held, given⟩ := List.mem_filterMap.mp member
    exact (closed ledger held).text ledger text given
  unfold layout
  generalize ledgers.filterMap text? = shown at texts
  induction shown with
  | nil => exact .nil
  | cons text rest ih =>
    have own := texts text List.mem_cons_self
    have tail := ih fun later member => texts later (List.mem_cons_of_mem _ member)
    cases rest with
    | nil => simpa using own
    | cons next rest =>
      rw [String.intercalate_cons_cons, String.toList_append, String.toList_append]
      exact (own.append _ _ (by decide)).append _ _ tail

theorem enclosing_of_closed (lead : String) (opening : Text.Closed lead.toList) :
    Enclosing lead "" := by
  intro text closed
  simpa using opening.append _ _ closed

theorem enclosing_parentheses : Enclosing "(" ")" := fun _ closed => closed.enclosed

theorem enclosing_heading (headed : Bool) : Enclosing (if headed then "WHERE " else "") "" := by
  apply enclosing_of_closed
  cases headed <;> decide

theorem Ledger.closed_of_calls {Call : Type} (lead trail : String) (offers : Call → List Offer)
    (calls : List Call) (enclosing : Enclosing lead trail)
    (closed : ∀ made ∈ calls, ∀ offer ∈ offers made, offer.Closed) :
    Ledger.Closed ⟨lead, trail, calls.flatMap offers⟩ := by
  refine ⟨enclosing, fun offer member => ?_⟩
  obtain ⟨made, called, own⟩ := List.mem_flatMap.mp member
  exact closed made called offer own

theorem UnionStatement.closed_ledgers (calls : List Call)
    (closed : ∀ made ∈ calls, made.supply.Closed none) :
    ∀ ledger ∈ ledgers calls, ledger.Closed := by
  intro shown member
  obtain ⟨part, _, rfl⟩ := List.mem_map.mp member
  refine Ledger.closed_of_calls _ _ _ calls (enclosing_of_closed _ ?_) fun made called =>
    closed_offers made (closed made called) part
  cases part <;> decide

theorem InsertStatement.Part.enclosing (part : Part) : Enclosing part.lead part.trail := by
  cases part with
  | columns => exact enclosing_parentheses
  | values =>
    intro text closed
    have keyword : Text.Closed "VALUES ".toList := by decide
    exact keyword.append _ _ (enclosing_parentheses text closed)
  | _ => exact enclosing_of_closed _ (by decide)

theorem InsertStatement.closed_ledgers (calls : List Call)
    (closed : ∀ made ∈ calls, made.supply.Closed none) :
    ∀ ledger ∈ ledgers calls, ledger.Closed := by
  intro shown member
  obtain ⟨part, _, rfl⟩ := List.mem_map.mp member
  exact Ledger.closed_of_calls _ _ _ calls part.enclosing fun made called =>
    closed_offers made (closed made called) part

theorem UpdateStatement.closed_ledgers (calls : List Call)
    (closed : ∀ made ∈ calls, made.supply.Closed made.template?) :
    ∀ ledger ∈ ledgers calls, ledger.Closed := by
  have own (lead : String) (part : Part) (enclosing : Enclosing lead "") :
      Ledger.Closed ⟨lead, "", calls.flatMap (Call.offers part)⟩ :=
    Ledger.closed_of_calls _ _ _ calls enclosing fun made called =>
      closed_offers made (closed made called) part
  simp only [ledgers, List.forall_mem_cons, List.not_mem_nil, false_implies, implies_true, and_true]
  exact ⟨own _ .table (enclosing_of_closed _ (by decide)),
    own _ .assignments (enclosing_of_closed _ (by decide)),
    own _ .condition (enclosing_heading _), own _ .returning (enclosing_of_closed _ (by decide))⟩

theorem DeleteStatement.closed_ledgers (calls : List Call)
    (closed : ∀ made ∈ calls, made.supply.Closed made.template?) :
    ∀ ledger ∈ ledgers calls, ledger.Closed := by
  have own (lead : String) (part : Part) (enclosing : Enclosing lead "") :
      Ledger.Closed ⟨lead, "", calls.flatMap (Call.offers part)⟩ :=
    Ledger.closed_of_calls _ _ _ calls enclosing fun made called =>
      closed_offers made (closed made called) part
  simp only [ledgers, List.forall_mem_cons, List.not_mem_nil, false_implies, implies_true, and_true]
  exact ⟨own _ .table (enclosing_of_closed _ (by decide)),
    own _ .condition (enclosing_heading _), own _ .returning (enclosing_of_closed _ (by decide))⟩

theorem Condition.closed_ledger (calls : List Call)
    (closed : ∀ made ∈ calls, made.supply.Closed made.template?) : (ledger calls).Closed := by
  refine ⟨enclosing_parentheses, fun offer member => ?_⟩
  obtain ⟨made, called, rfl⟩ := List.mem_map.mp member
  exact made.closed_offer (closed made called)

namespace SelectStatement

theorem closed_offered (calls : List Call)
    (closed : ∀ made ∈ calls, made.supply.Closed made.template?) (part : Part) (lead : String)
    (enclosing : Enclosing lead "") : Ledger.Closed ⟨lead, "", offered part calls⟩ := by
  refine ⟨enclosing, fun offer member => ?_⟩
  obtain ⟨before, made, after, rfl, _, _, offers, _⟩ := (mem_offered part calls offer).mp member
  exact closed_offers made (closed made (by simp)) offer offers

theorem closed_quantifierWord (calls : List Call)
    (closed : ∀ made ∈ calls, made.supply.Closed made.template?) :
    Text.Closed (quantifierWord calls).toList := by
  unfold quantifierWord
  split
  · rename_i word given
    have own := closed_offered calls closed .quantifier "" (enclosing_of_closed "" .nil)
    rw [String.toList_append]
    exact (own.text _ word given).append _ _ (by decide)
  · exact .nil

theorem closed_ledgers (calls : List Call)
    (closed : ∀ made ∈ calls, made.supply.Closed made.template?) :
    ∀ ledger ∈ ledgers calls, ledger.Closed := by
  have own (part : Part) (lead : String) (enclosing : Enclosing lead "") :=
    closed_offered calls closed part lead enclosing
  have selecting : Text.Closed ("SELECT " ++ quantifierWord calls).toList := by
    have keyword : Text.Closed "SELECT ".toList := by decide
    rw [String.toList_append]
    exact keyword.append _ _ (closed_quantifierWord calls closed)
  have lead (part : Part) : Enclosing part.lead "" := by
    apply enclosing_of_closed
    cases part <;> decide
  simp only [ledgers, List.forall_mem_cons, List.not_mem_nil, false_implies, implies_true, and_true]
  exact ⟨own .columns _ (enclosing_of_closed _ selecting), own .source _ (lead .source),
    own .joins _ (lead .joins), own .condition _ (enclosing_heading _),
    own .grouping _ (lead .grouping), own .groupCondition _ (lead .groupCondition),
    own .ordering _ (lead .ordering), own .offset _ (lead .offset), own .limit _ (lead .limit)⟩

end SelectStatement

namespace History

theorem closed_ledgers (history : History) (closed : history.Closed)
    (nested : ∀ query ∈ history.nested, query.Closed) :
    ∀ ledger ∈ history.ledgers, ledger.Closed := by
  obtain ⟨texts, slots⟩ := closed
  cases history with
  | select calls =>
    exact SelectStatement.closed_ledgers calls
      (Supply.closed_of_calls _ _ calls texts slots nested)
  | union calls =>
    exact UnionStatement.closed_ledgers calls
      (Supply.closed_of_calls _ (fun _ => none) calls texts (by simp) nested)
  | insert calls =>
    exact InsertStatement.closed_ledgers calls
      (Supply.closed_of_calls _ (fun _ => none) calls texts (by simp) nested)
  | update calls =>
    exact UpdateStatement.closed_ledgers calls
      (Supply.closed_of_calls _ _ calls texts slots nested)
  | delete calls =>
    exact DeleteStatement.closed_ledgers calls
      (Supply.closed_of_calls _ _ calls texts slots nested)
  | condition calls =>
    have own := Condition.closed_ledger calls
      (Supply.closed_of_calls _ _ calls texts slots nested)
    simpa [ledgers] using own

theorem closed_rendering (history : History) (closed : history.Closed)
    (nested : ∀ query ∈ history.nested, query.Closed) : history.rendering.Closed := by
  intro sql rendered
  rw [text_rendering, outcome_ok_iff] at rendered
  obtain ⟨_, rfl⟩ := rendered
  exact Ledger.closed_layout _ (closed_ledgers history closed nested)

theorem enclosed_rendering (history : History) (closed : history.Closed)
    (nested : ∀ query ∈ history.nested, query.Closed)
    (enclosed : history.rendering.enclosed = true) (sql : String)
    (rendered : history.rendering.text = .ok sql) (filled : sql ≠ "") :
    ∃ inner, Text.Closed inner ∧ sql.toList = '(' :: inner ++ [')'] := by
  cases history with
  | condition calls =>
    have shut := closed_ledgers (.condition calls) closed nested
    have own := shut (Condition.ledger calls) (List.mem_singleton_self _)
    rw [text_rendering, outcome_ok_iff] at rendered
    obtain ⟨_, rfl⟩ := rendered
    rw [ledgers, Ledger.layout_singleton] at filled ⊢
    by_cases empty : Offer.links (Condition.ledger calls).offers = []
    · rw [Ledger.text?_of_nil _ empty] at filled
      exact absurd rfl filled
    · refine ⟨_, own.joined, ?_⟩
      rw [Ledger.text?_of_ne_nil _ empty, Option.getD_some, String.toList_append,
        String.toList_append]
      simp [Condition.ledger]
  | _ => cases enclosed

end History

namespace Tree

theorem closed_rendering {rendering : Rendering} (tree : Tree rendering)
    (closed : tree.All History.Closed) : rendering.Closed := by
  induction tree with
  | node history nested ih =>
    obtain ⟨own, others⟩ := closed
    apply history.closed_rendering own
    apply (List.forall_mem_iff_forall_getElem (P := Rendering.Closed)).mpr
    intro place bounded
    exact ih ⟨place, bounded⟩ (others ⟨place, bounded⟩)

theorem parenthesized {rendering : Rendering} (tree : Tree rendering)
    (closed : tree.All History.Closed) (sql nested : String) (rendered : rendering.text = .ok sql)
    (filled : sql ≠ "") (set : rendering.nested = .ok nested) :
    ∃ inner, Text.Closed inner ∧ nested.toList = '(' :: inner ++ [')'] := by
  have whole := tree.closed_rendering closed
  unfold Rendering.nested at set
  split at set
  · rename_i enclosed
    cases rendered.symm.trans set
    cases tree with
    | node history inside =>
      have others : ∀ query ∈ history.nested, query.Closed := by
        apply (List.forall_mem_iff_forall_getElem (P := Rendering.Closed)).mpr
        intro place bounded
        exact (inside ⟨place, bounded⟩).closed_rendering (closed.2 ⟨place, bounded⟩)
      exact history.enclosed_rendering closed.1 others enclosed sql rendered filled
  · rw [rendered] at set
    cases set
    exact ⟨_, whole sql rendered, by simp⟩

/-- A statement built from closed texts is closed. Set into another one it begins with a parenthesis
and is a single group, so that wherever it stands, reading goes on behind it. -/
theorem nested_group {rendering : Rendering} (tree : Tree rendering)
    (closed : tree.All History.Closed) (sql : String) (rendered : rendering.text = .ok sql) :
    Text.Closed sql.toList ∧
      ∀ nested, rendering.nested = .ok nested → sql ≠ "" →
        ∃ inner, nested.toList = '(' :: inner ∧ Text.group? inner = some (inner, []) ∧
          ∀ boundary rest, Lexed.ofText boundary (nested.toList ++ rest) =
            (Lexed.ofText false rest).behind nested.toList := by
  refine ⟨tree.closed_rendering closed sql rendered, fun nested set filled => ?_⟩
  obtain ⟨inner, shut, text⟩ := tree.parenthesized closed sql nested rendered filled set
  refine ⟨inner ++ [')'], text, Text.group?_of_closed inner [] shut, fun boundary rest => ?_⟩
  have read := Text.group?_of_closed inner rest shut
  rw [text]
  exact Lexed.ofText_group boundary _ rest _ (by simpa using read)

/-- A query nested twice, with a parenthesis and a keyword in literals. -/
theorem nested_group_query_in_condition :
    Text.Closed "(f((SELECT ')' FROM t)) = ' LIMIT ')".toList ∧
      ∀ boundary rest,
        Lexed.ofText boundary ("(f((SELECT ')' FROM t)) = ' LIMIT ')".toList ++ rest) =
          (Lexed.ofText false rest).behind "(f((SELECT ')' FROM t)) = ' LIMIT ')".toList := by
  let inner : History := .select [.source "t", .column "')'"]
  let outer : History := .condition [.query .and "f(?) = ' LIMIT '" inner.rendering]
  let tree : Tree outer.rendering := .node outer fun
    | ⟨0, _⟩ => .node inner fun place => place.elim0
  have closed : tree.All History.Closed := by
    refine ⟨⟨by decide, by decide⟩, fun place => ?_⟩
    match place with
    | ⟨0, _⟩ => exact ⟨⟨by decide, by decide⟩, fun place => place.elim0⟩
  have rendered : outer.rendering.text = .ok "(f((SELECT ')' FROM t)) = ' LIMIT ')" := by
    have shown : outer.rendering.text.toOption = some "(f((SELECT ')' FROM t)) = ' LIMIT ')" := by
      decide +kernel +zetaReduce
    cases text : outer.rendering.text with
    | error error => simp [text, Except.toOption] at shown
    | ok sql => simpa [text, Except.toOption] using shown
  obtain ⟨whole, group⟩ := tree.nested_group closed _ rendered
  obtain ⟨_, _, _, read⟩ := group _ rendered (by decide)
  exact ⟨whole, read⟩

end Tree

end SqlCompose
