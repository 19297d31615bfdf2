import SqlCompose.History.Parsed
import SqlCompose.Proofs.Reparsing
import SqlCompose.Proofs.SelectHistory

/-! A parsed statement goes on like one that was given the same clauses by calls: the two differ in
nothing but the separators of their conditions, which every later call sets anew. -/
namespace SqlCompose

namespace Phrase

theorem hydrate_clause (keyword : String) (separator : Option String) (body : String) :
    (clause keyword separator).hydrate keyword body = (clause keyword separator).append body := by
  by_cases empty : body = ""
  · subst empty
    rfl
  · have filled : body.isEmpty = false := by simpa [String.isEmpty_iff] using empty
    simp [hydrate, append, emit, clause, wrapped, reset, filled]

theorem hydrate_new (phrase : Phrase) (keyword : String) (separator : Option String)
    (body : String) (new : phrase = .clause keyword separator) :
    phrase.hydrate keyword body = phrase.append body := by
  rw [new]
  exact hydrate_clause keyword separator body

end Phrase

theorem BoundPhrase.hydrate_new (bound : BoundPhrase) (keyword : String)
    (separator : Option String) (body : String) (new : bound = ⟨.clause keyword separator, []⟩) :
    bound.hydrate keyword body = bound.add ⟨body, []⟩ := by
  rw [new]
  exact congrArg (BoundPhrase.mk · []) (Phrase.hydrate_clause keyword separator body)

namespace Condition

/-- A condition without the separator that its last call left. -/
def settled (condition : Condition) : Condition :=
  ⟨{ condition.clause with phrase := { condition.clause.phrase with separator := none } }⟩

theorem settled_add (condition : Condition) (made : Call) :
    (condition.settled.add made).settled = (condition.add made).settled := by
  unfold add
  cases made.fragment <;> rfl

theorem renderHeaded_settled (condition : Condition) (headed : Bool) :
    condition.settled.renderHeaded headed = condition.renderHeaded headed := by
  cases headed <;> rfl

theorem hydrate_new (condition : Condition) (keyword body : String)
    (new : condition = .clauseOf keyword) :
    (condition.hydrate keyword body).settled =
      (condition.add (.expression .and body [])).settled := by
  -- On a new clause the separator that the call sets is not used yet.
  have separated := Phrase.hydrate_clause keyword (some " AND ") body
  have added : (clauseOf keyword).add (.expression .and body []) =
      ⟨⟨(Phrase.clause keyword (some " AND ")).append body, []⟩⟩ := rfl
  rw [new, added, ← separated]
  unfold hydrate BoundPhrase.hydrate Phrase.hydrate
  split <;> rfl

end Condition

namespace SelectStatement

def settled (statement : SelectStatement) : SelectStatement :=
  { statement with
    condition := statement.condition.settled
    groupCondition := statement.groupCondition.settled }

theorem settled_call (statement : SelectStatement) (made : Call) :
    (statement.settled.call made).settled = (statement.call made).settled := by
  cases made with
  | condition made =>
    have same := statement.condition.settled_add made
    exact congrArg (fun condition => { statement.settled with condition }) same
  | groupCondition made =>
    have same := statement.groupCondition.settled_add made
    exact congrArg (fun groupCondition => { statement.settled with groupCondition }) same
  | _ => rfl

theorem settled_foldl (first second : SelectStatement) (same : first.settled = second.settled)
    (calls : List Call) : (calls.foldl call first).settled = (calls.foldl call second).settled := by
  induction calls generalizing first second with
  | nil => exact same
  | cons made rest ih =>
    apply ih
    rw [← settled_call first, ← settled_call second, same]

theorem rendering_settled (statement : SelectStatement) :
    statement.settled.rendering = statement.rendering := by
  have rendered : statement.settled.render = statement.render := by
    have grouped : statement.groupCondition.settled.render = statement.groupCondition.render := rfl
    simp only [render, settled, Condition.renderHeaded_settled, grouped]
    rfl
  unfold rendering
  rw [rendered]
  rfl

theorem held_hydrate_elsewhere (statement : SelectStatement) (clause : Clause)
    (keyword body : String) (part : Part) (elsewhere : clause.part ≠ part) :
    (statement.hydrate clause keyword body).held part = statement.held part := by
  cases clause <;> cases part <;> first | rfl | exact absurd rfl elsewhere

theorem settled_hydrate (statement : SelectStatement) (clause : Clause) (body : String)
    (new : statement.held clause.part = held {} clause.part)
    (joined : clause = .join → body ≠ "")
    (counted : clause = .offset ∨ clause = .limit → ∃ count : UInt64, body = toString count.toNat) :
    (statement.hydrate clause clause.keyword body).settled =
      (statement.call (callOf clause body)).settled := by
  cases clause with
  | select =>
    have same := statement.columns.hydrate_new _ _ body (BoundPhrase.mk.inj new).1
    exact congrArg (fun columns => settled { statement with columns }) same
  | source =>
    have same := statement.source.hydrate_new _ _ body new
    exact congrArg (fun source => settled { statement with source }) same
  | join =>
    have fragment : joinFragment .plain body [] = ⟨"JOIN " ++ body, []⟩ :=
      joinFragment_filled .plain body [] (joined rfl)
    have same := statement.joins.hydrate_new _ _ ("JOIN " ++ body) new
    rw [callOf, call, fragment]
    exact congrArg (fun joins => settled { statement with joins }) same
  | condition =>
    have same := statement.condition.hydrate_new _ body (congrArg Condition.mk new)
    exact congrArg (fun condition => { statement.settled with condition }) same
  | groupBy =>
    have same := statement.grouping.hydrate_new _ _ body (BoundPhrase.mk.inj new).1
    exact congrArg (fun grouping => settled { statement with grouping }) same
  | having =>
    have same := statement.groupCondition.hydrate_new _ body (congrArg Condition.mk new)
    exact congrArg (fun groupCondition => { statement.settled with groupCondition }) same
  | orderBy =>
    have same := statement.ordering.hydrate_new _ _ body (BoundPhrase.mk.inj new).1
    exact congrArg (fun ordering => settled { statement with ordering }) same
  | offset =>
    obtain ⟨count, rfl⟩ := counted (.inl rfl)
    have same := statement.offset.hydrate_new _ _ (toString count.toNat) (BoundPhrase.mk.inj new).1
    have number : callOf .offset (toString count.toNat) = .offset count := by simp [callOf]
    rw [number]
    exact congrArg (fun offset => settled { statement with offset }) same
  | limit =>
    obtain ⟨count, rfl⟩ := counted (.inr rfl)
    have same := statement.limit.hydrate_new _ _ (toString count.toNat) (BoundPhrase.mk.inj new).1
    have number : callOf .limit (toString count.toNat) = .limit count := by simp [callOf]
    rw [number]
    exact congrArg (fun limit => settled { statement with limit }) same

theorem ext_held (first second : SelectStatement)
    (same : ∀ part, first.held part = second.held part) : first = second := by
  cases first
  cases second
  rw [SelectStatement.mk.injEq]
  exact ⟨(BoundPhrase.mk.inj (same .quantifier)).1, (BoundPhrase.mk.inj (same .columns)).1,
    same .source, same .joins, congrArg Condition.mk (same .condition),
    (BoundPhrase.mk.inj (same .grouping)).1, congrArg Condition.mk (same .groupCondition),
    (BoundPhrase.mk.inj (same .ordering)).1, (BoundPhrase.mk.inj (same .offset)).1,
    (BoundPhrase.mk.inj (same .limit)).1⟩

theorem hydrate_empty (statement : SelectStatement) (clause : Clause)
    (new : statement.held clause.part = held {} clause.part) (unjoined : clause ≠ .join) :
    statement.hydrate clause clause.keyword "" = statement := by
  apply ext_held
  intro part
  by_cases own : clause.part = part
  · subst own
    have same : (statement.hydrate clause clause.keyword "").held clause.part =
        (statement.held clause.part).hydrate (clause.keyword ++ " ") "" := by
      cases clause <;> first | rfl | exact absurd rfl unjoined
    rw [same, new]
    cases clause <;> first | rfl | exact absurd rfl unjoined
  · exact held_hydrate_elsewhere statement clause _ "" part own

theorem settled_take (statement : SelectStatement) (chunk : Chunk) (clause : Clause)
    (named : chunk.clause = some clause) (callable : chunk.Callable clause)
    (new : statement.held clause.part = held {} clause.part) :
    (statement.take chunk).settled = (chunk.call?.toList.foldl call statement).settled := by
  rw [take, named]
  simp only [callable.capital]
  by_cases empty : chunk.body = ""
  · have uncalled : chunk.call? = none := by simp [Chunk.call?, empty]
    rw [empty, uncalled, hydrate_empty statement clause new fun join => callable.joined join empty]
    rfl
  · have called : chunk.call? = some (callOf clause chunk.body) := by
      simp [Chunk.call?, empty, named]
    rw [called]
    apply settled_hydrate statement clause chunk.body new callable.joined
    intro counts
    rcases callable.counted counts with none | number
    · exact absurd none empty
    · exact number

theorem settled_takes (chunks : List Chunk) (statement : SelectStatement)
    (callable : ∀ chunk ∈ chunks, ∃ clause, chunk.clause = some clause ∧ chunk.Callable clause ∧
      statement.held clause.part = held {} clause.part)
    (distinct : (chunks.map Chunk.clause).Nodup) :
    (chunks.foldl take statement).settled =
      ((chunks.filterMap Chunk.call?).foldl call statement).settled := by
  induction chunks generalizing statement with
  | nil => rfl
  | cons chunk rest ih =>
    obtain ⟨clause, named, own, new⟩ := callable chunk List.mem_cons_self
    rw [List.map_cons, List.nodup_cons] at distinct
    have step := settled_take statement chunk clause named own new
    have tail := ih (statement.take chunk) (fun later member => ?_) distinct.2
    · have calls : (chunk :: rest).filterMap Chunk.call? =
          chunk.call?.toList ++ rest.filterMap Chunk.call? := by
        cases called : chunk.call? <;> simp [called]
      rw [List.foldl_cons, tail, calls, List.foldl_append]
      exact settled_foldl _ _ step _
    · obtain ⟨other, renamed, also, fresh⟩ := callable later (List.mem_cons_of_mem _ member)
      refine ⟨other, renamed, also, ?_⟩
      -- The clauses of the chunks are distinct, so the first chunk leaves the others new.
      have elsewhere : clause.part ≠ other.part := by
        intro same
        apply distinct.1
        rw [named, Clause.part_injective same, ← renamed]
        exact List.mem_map.mpr ⟨later, member, rfl⟩
      rw [take, named]
      exact (held_hydrate_elsewhere statement clause _ _ _ elsewhere).trans fresh

/-- However it goes on, a parsed statement renders and binds as one that was given its clauses by
calls. -/
theorem parse_continues (sql : String) (chunks : List Chunk) (tokenized : tokenize sql = .ok chunks)
    (statement : SelectStatement) (parsed : parse sql = .ok statement)
    (callable : ∀ chunk ∈ chunks, ∀ clause, chunk.clause = some clause → chunk.Callable clause)
    (further : List Call) :
    (further.foldl call statement).rendering =
      (ofCalls (chunks.filterMap Chunk.call? ++ further)).rendering := by
  have taken := (parse_eq_ok_iff sql chunks statement tokenized).mp parsed
  obtain ⟨ordered, rfl⟩ := (takeChunks_eq_iff _ _ _ _).mp taken
  have distinct : (chunks.map Chunk.clause).Nodup := by
    have listed : (Clause.all.map some).Nodup := by decide
    exact ordered.nodup listed
  have same := settled_takes chunks {} (fun chunk member => ?_) distinct
  · rw [ofCalls, List.foldl_append, ← rendering_settled, settled_foldl _ _ same further,
      rendering_settled]
  · have listed := ordered.mem (List.mem_map.mpr ⟨chunk, member, rfl⟩)
    obtain ⟨clause, _, named⟩ := List.mem_map.mp listed
    exact ⟨clause, named.symm, callable chunk member clause named.symm, rfl⟩

/-- A limit that was read is cleared and set anew, and a condition goes on from one that was read. -/
theorem parse_continues_limit_changed :
    ∃ statement, parse "SELECT a FROM t WHERE b = '?' LIMIT 3" = .ok statement ∧
      ([.condition (.expression .or "c = ?" [.bool true]), .withoutLimit, .distinct, .limit 5].foldl
        call statement).rendering =
          { text := .ok "SELECT DISTINCT a FROM t WHERE b = '?' OR c = ? LIMIT 5",
            params := [.bool true] } := by
  have tokenized : tokenize "SELECT a FROM t WHERE b = '?' LIMIT 3" = .ok
      [⟨some .select, "SELECT a "⟩, ⟨some .source, "FROM t "⟩,
       ⟨some .condition, "WHERE b = '?' "⟩, ⟨some .limit, "LIMIT 3"⟩] :=
    tokenize_of_shown _ _ (by decide +kernel)
  have taken := (takeChunks_eq_iff Clause.all [⟨some .select, "SELECT a "⟩,
    ⟨some .source, "FROM t "⟩, ⟨some .condition, "WHERE b = '?' "⟩, ⟨some .limit, "LIMIT 3"⟩]
    {} _).mpr ⟨by decide, rfl⟩
  have parsed := (parse_eq_ok_iff _ _ _ tokenized).mpr taken
  refine ⟨_, parsed, (parse_continues _ _ tokenized _ parsed ?_ _).trans ?_⟩
  · intro chunk member clause named
    simp only [List.mem_cons, List.not_mem_nil, or_false] at member
    rcases member with rfl | rfl | rfl | rfl <;> cases named
    · exact ⟨by decide, by decide, by simp⟩
    · exact ⟨by decide, by decide, by simp⟩
    · exact ⟨by decide, by decide, by simp⟩
    · exact ⟨by decide, by decide, fun _ => .inr ⟨3, by decide⟩⟩
  · rfl

end SelectStatement

end SqlCompose
