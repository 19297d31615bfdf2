import SqlCompose.Proofs.Chaining
import SqlCompose.Proofs.Ledger
import SqlCompose.Proofs.Misuse

/-! Conditions travel between statements. Made on a new statement, a run of calls renders to a text
without a keyword; that text, set into another statement by one call, stands for the whole run. -/
namespace SqlCompose

namespace Condition

structure Yields (calls : List Call) (text : String) (params : List Value) : Prop where
  content : ∀ made ∈ calls, ∃ fragment, made.fragment = .ok fragment
  joined : Link.joined (Offer.links (calls.map Call.offer)) = text
  bound : (calls.map Call.offer).flatMap Offer.params = params

theorem exists_yields (calls : List Call) (sound : ∀ made ∈ calls, ¬ made.Misused)
    (filled : ∃ made ∈ calls, ∃ fragment, made.Brings fragment ∧ fragment.text ≠ "") :
    ∃ text params, text ≠ "" ∧ Yields calls text params := by
  refine ⟨_, _, Offer.joined_links_ne _ ?_, ?_, rfl, rfl⟩
  · obtain ⟨made, member, fragment, brings, texted⟩ := filled
    have content := (made.brings_iff (sound made member) fragment).mp brings
    exact (Offer.links_ne_nil_iff _).mpr
      ⟨made.offer, List.mem_map_of_mem member, fragment, content, texted⟩
  · intro made member
    obtain ⟨fragment, brings⟩ := made.exists_brings (sound made member)
    exact ⟨fragment, (made.brings_iff (sound made member) fragment).mp brings⟩

theorem yields_expression (operator : Connective) (text : String) (params : List Value) :
    Yields [.expression operator text params] text params := by
  refine ⟨fun made member => ?_, ?_, by simp [Call.offer, Call.fragment, Offer.params]⟩
  · rw [List.mem_singleton.mp member]
    exact ⟨_, rfl⟩
  · by_cases empty : text = "" <;>
      simp [Call.offer, Call.fragment, Offer.links, Offer.link?, Link.joined, empty]

section

variable {condition : Condition} {keyword : String} {offers : List Offer}

theorem holds_foldl {lead trail : String} (holds : condition.clause.Holds lead trail offers)
    (calls : List Call) :
    (calls.foldl add condition).clause.Holds lead trail (offers ++ calls.map Call.offer) := by
  induction calls generalizing condition offers with
  | nil => simpa using holds
  | cons made rest ih =>
    have taken : (condition.add made).clause.Holds lead trail (offers ++ [made.offer]) :=
      holds.takeBehind made.operator.text made.fragment
    simpa using ih taken

theorem vacant_clauseOf (keyword : String) : (clauseOf keyword).Vacant := ⟨keyword, none, rfl⟩

theorem Vacant.add (vacant : condition.Vacant) (made : Call) (params : List Value)
    (empty : made.fragment = .ok ⟨"", params⟩) : (condition.add made).Vacant := by
  obtain ⟨keyword, separator, phrase⟩ := vacant
  refine ⟨keyword, some made.operator.text, ?_⟩
  simp only [Condition.add, empty, BoundPhrase.takeBehind, phrase]
  rfl

theorem Vacant.holds (vacant : condition.Vacant) :
    ∃ keyword joint, condition.clause.Holds keyword "" [⟨joint, .ok ⟨"", condition.params⟩⟩] := by
  obtain ⟨keyword, separator, phrase⟩ := vacant
  have blank := (Phrase.holds_clause keyword separator).append "" condition.params
  have unchanged : (Phrase.clause keyword separator).append "" = condition.clause.phrase := by
    rw [phrase]
    rfl
  rw [unchanged] at blank
  exact ⟨keyword, separator, blank, by simp [params, Offer.params]⟩

variable {calls : List Call} {text : String} {params : List Value}

/-- A run of calls gives a vacant clause its text, behind the keyword if there is one, and its
parameters behind those of the clause. -/
theorem Yields.foldl (yields : Yields calls text params) (filled : text ≠ "")
    {joint : Option String}
    (holds : condition.clause.Holds keyword "" [⟨joint, .ok ⟨"", condition.params⟩⟩]) :
    (∀ headed, (calls.foldl Condition.add condition).renderHeaded headed =
      .ok ((if headed then keyword else "") ++ text)) ∧
    (calls.foldl Condition.add condition).params = condition.params ++ params := by
  have later := holds_foldl holds calls
  refine ⟨fun headed => ?_, ?_⟩
  · rw [renderHeaded_eq later.phrase, outcome_ok_iff]
    have links : Offer.links (⟨joint, .ok ⟨"", condition.params⟩⟩ :: calls.map Call.offer) =
        Offer.links (calls.map Call.offer) := by
      simp [Offer.links_cons, Offer.link?]
    have given : Offer.links (calls.map Call.offer) ≠ [] := by
      intro empty
      apply filled
      rw [← yields.joined, empty]
      rfl
    have unmisused :
        Offer.firstMisuse? (Text.trimmed keyword) [] (calls.map Call.offer) = none := by
      apply Offer.firstMisuse?_of_joined
      intro offer member
      obtain ⟨made, present, rfl⟩ := List.mem_map.mp member
      obtain ⟨fragment, content⟩ := yields.content made present
      exact ⟨made.operator.text, fragment, by simp [Call.offer, content]⟩
    constructor
    · simpa [Ledger.misuse?, Offer.firstMisuse?, Offer.misuse?, Offer.link?] using unmisused
    · rw [List.singleton_append, Ledger.text?, links, yields.joined]
      simp [given]
  · have bound := later.params
    rw [List.flatMap_append, yields.bound, List.flatMap_singleton] at bound
    exact bound

/-- A run of calls and one call with what it comes to cannot be told apart behind a keyword. -/
theorem Vacant.foldl_eq (vacant : condition.Vacant) (yields : Yields calls text params)
    (filled : text ≠ "") (operator : Connective) :
    (∀ headed, (calls.foldl Condition.add condition).renderHeaded headed =
      (condition.add (.expression operator text params)).renderHeaded headed) ∧
    (calls.foldl Condition.add condition).params =
      (condition.add (.expression operator text params)).params := by
  obtain ⟨keyword, joint, holds⟩ := vacant.holds
  obtain ⟨rendered, bound⟩ := yields.foldl filled holds
  obtain ⟨once, alone⟩ := (yields_expression operator text params).foldl filled holds
  exact ⟨fun headed => (rendered headed).trans (once headed).symm, bound.trans alone.symm⟩

theorem Yields.headless (yields : Yields calls text params) (filled : text ≠ "")
    (keyword : String) :
    (calls.foldl Condition.add (clauseOf keyword)).renderHeaded false = .ok text ∧
    (calls.foldl Condition.add (clauseOf keyword)).params = params := by
  obtain ⟨_, _, holds⟩ := (vacant_clauseOf keyword).holds
  obtain ⟨rendered, bound⟩ := yields.foldl filled holds
  exact ⟨by simpa using rendered false, bound⟩

end

/-- A statement that takes calls for its condition and is read through what its condition renders to
and binds. -/
structure Hosts {State Made : Type} (call : State → Made → State) (lift : Call → Made)
    (rendering : State → Rendering) (within : Condition → State) : Prop where
  step : ∀ condition made, call (within condition) (lift made) = within (condition.add made)
  congr : ∀ {condition other : Condition},
    (∀ headed, condition.renderHeaded headed = other.renderHeaded headed) →
    condition.params = other.params → rendering (within condition) = rendering (within other)

section

variable {State Made : Type} {call : State → Made → State} {lift : Call → Made}
  {rendering : State → Rendering} {within : Condition → State} {calls : List Call} {text : String}
  {params : List Value}

theorem Hosts.foldl (hosts : Hosts call lift rendering within) (condition : Condition)
    (calls : List Call) :
    (calls.map lift).foldl call (within condition) = within (calls.foldl add condition) := by
  induction calls generalizing condition with
  | nil => rfl
  | cons made rest ih => rw [List.map_cons, List.foldl_cons, hosts.step, ih, List.foldl_cons]

theorem Hosts.interchangeable (hosts : Hosts call lift rendering within) {condition : Condition}
    (vacant : condition.Vacant) (yields : Yields calls text params) (filled : text ≠ "")
    (operator : Connective) :
    rendering ((calls.map lift).foldl call (within condition)) =
      rendering (call (within condition) (lift (.expression operator text params))) := by
  obtain ⟨rendered, bound⟩ := vacant.foldl_eq yields filled operator
  rw [hosts.foldl, hosts.step]
  exact hosts.congr rendered bound

theorem joinClauses_single (before after : Nat) (filled : text ≠ "") :
    joinClauses (List.replicate before "" ++ text :: List.replicate after "") = text := by
  simp [joinClauses, List.filter_append, filled]

/-- Alone in a statement, between clauses without text, the calls stand without a keyword. -/
theorem Hosts.headless (hosts : Hosts call lift rendering within) (before after : Nat)
    (alone : ∀ condition, rendering (within condition) =
      { text := condition.renderHeaded false >>= fun text =>
          .ok (joinClauses (List.replicate before "" ++ text :: List.replicate after "")),
        params := condition.params })
    (yields : Yields calls text params) (filled : text ≠ "") (keyword : String) :
    rendering ((calls.map lift).foldl call (within (clauseOf keyword))) =
      { text := .ok text, params } := by
  obtain ⟨rendered, bound⟩ := yields.headless filled keyword
  rw [hosts.foldl, alone, rendered, bound]
  simp only [bind, Except.bind, joinClauses_single before after filled]

end

end Condition

theorem SelectStatement.hosts (host : SelectStatement) :
    Condition.Hosts call Call.condition rendering fun condition => { host with condition } where
  step _ _ := rfl
  congr text params := by
    simp only [rendering, render, renderColumns, SelectStatement.params, text, params]

theorem UpdateStatement.hosts (host : UpdateStatement) :
    Condition.Hosts call Call.condition rendering fun condition => { host with condition } where
  step _ _ := rfl
  congr text params := by simp only [rendering, render, UpdateStatement.params, text, params]

theorem DeleteStatement.hosts (host : DeleteStatement) :
    Condition.Hosts call Call.condition rendering fun condition => { host with condition } where
  step _ _ := rfl
  congr text params := by simp only [rendering, render, DeleteStatement.params, text, params]

namespace Condition

/-- Calls without misuse that bring some text make the same text and parameters on a new statement of
any kind. A statement that has no condition yet can take that text with those parameters in one call
instead of the calls themselves. -/
theorem headless_interchangeable (calls : List Call) (sound : ∀ made ∈ calls, ¬ made.Misused)
    (filled : ∃ made ∈ calls, ∃ fragment, made.Brings fragment ∧ fragment.text ≠ "") :
    ∃ text params, text ≠ "" ∧
      (SelectStatement.ofCalls (calls.map .condition)).rendering = { text := .ok text, params } ∧
      (UpdateStatement.ofCalls (calls.map .condition)).rendering = { text := .ok text, params } ∧
      (DeleteStatement.ofCalls (calls.map .condition)).rendering = { text := .ok text, params } ∧
      (∀ host : SelectStatement, host.condition.Vacant →
        ((calls.map .condition).foldl SelectStatement.call host).rendering =
          (host.call (.condition (.expression .and text params))).rendering) ∧
      (∀ host : UpdateStatement, host.condition.Vacant →
        ((calls.map .condition).foldl UpdateStatement.call host).rendering =
          (host.call (.condition (.expression .and text params))).rendering) ∧
      (∀ host : DeleteStatement, host.condition.Vacant →
        ((calls.map .condition).foldl DeleteStatement.call host).rendering =
          (host.call (.condition (.expression .and text params))).rendering) := by
  obtain ⟨text, params, texted, yields⟩ := exists_yields calls sound filled
  refine ⟨text, params, texted, ?_, ?_, ?_, fun host vacant => ?_, fun host vacant => ?_,
    fun host vacant => ?_⟩
  · refine (SelectStatement.hosts {}).headless 3 5 (fun condition => ?_) yields texted "WHERE "
    have bound : SelectStatement.params { condition } = condition.params := List.append_nil _
    rw [SelectStatement.rendering, bound]
    rfl
  · exact (UpdateStatement.hosts {}).headless 2 1 (fun _ => rfl) yields texted "WHERE "
  · exact (DeleteStatement.hosts {}).headless 1 1 (fun _ => rfl) yields texted "WHERE "
  · exact host.hosts.interchangeable vacant yields texted .and
  · exact host.hosts.interchangeable vacant yields texted .and
  · exact host.hosts.interchangeable vacant yields texted .and

/-- A condition without text has left its parameter in the host; the calls after it go behind WHERE as
one text. -/
theorem headless_interchangeable_update :
    (UpdateStatement.ofCalls [.table "t", .set "n" (.bool true), .returning "id",
        .condition (.expression .or "" [.null]), .condition (.expression .or "a = ?" [.text "x"]),
        .condition (.group .and (ofCalls [.expression .and "b" [], .expression .or "c" []])),
        .condition (.query .and "d IN ?" (History.select [.column "e", .source "s",
          .condition (.expression .and "f = ?" [.bool false])]).rendering)]).rendering =
      { text := .ok ("UPDATE t SET n = ? " ++
          "WHERE a = ? AND (b OR c) AND d IN (SELECT e FROM s WHERE f = ?) RETURNING id"),
        params := [.bool true, .null, .text "x", .bool false] } := by
  have interchangeable (host : UpdateStatement) (vacant : host.condition.Vacant) (calls : List Call)
      (sound : ∀ made ∈ calls, ¬ made.Misused)
      (filled : ∃ made ∈ calls, ∃ fragment, made.Brings fragment ∧ fragment.text ≠ "")
      (text : String) (params : List Value)
      (headless : (UpdateStatement.ofCalls (calls.map .condition)).rendering =
        { text := .ok text, params }) :
      ((calls.map .condition).foldl UpdateStatement.call host).rendering =
        (host.call (.condition (.expression .and text params))).rendering := by
    obtain ⟨own, bound, _, _, alone, _, _, hosted, _⟩ := headless_interchangeable calls sound filled
    simp only [alone, Rendering.mk.injEq, Except.ok.injEq, true_and] at headless
    obtain ⟨rfl, rfl⟩ := headless
    exact hosted host vacant
  refine (interchangeable (.ofCalls [.table "t", .set "n" (.bool true), .returning "id",
      .condition (.expression .or "" [.null])]) ((vacant_clauseOf "WHERE ").add _ [.null] rfl)
    [.expression .or "a = ?" [.text "x"],
      .group .and (ofCalls [.expression .and "b" [], .expression .or "c" []]),
      .query .and "d IN ?" (History.select [.column "e", .source "s",
        .condition (.expression .and "f = ?" [.bool false])]).rendering] ?_ ?_
    "a = ? AND (b OR c) AND d IN (SELECT e FROM s WHERE f = ?)" [.text "x", .bool false] rfl).trans
    rfl
  · intro made member misused
    cases (misused_iff _).mpr ⟨made, member, misused⟩
  · exact ⟨_, List.mem_cons_self, _, .expression _ _ _, by decide⟩

end Condition

end SqlCompose
