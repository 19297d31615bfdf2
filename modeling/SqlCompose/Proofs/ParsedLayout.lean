import SqlCompose.Proofs.Rereading
import SqlCompose.Select.Layout
import SqlCompose.Select.Parser

/-! A parsed statement renders to the clauses it was parsed from. -/
namespace SqlCompose

namespace Chunk

def shown (chunk : Chunk) : String := if chunk.kept then chunk.written else ""

theorem filter_kept (chunks : List Chunk) :
    (chunks.filter kept).map triple =
      (chunks.map triple).filter fun read => read.1 = some .join || !read.2.2.isEmpty := by
  rw [List.filter_map]
  rfl

theorem map_written (chunks : List Chunk) :
    chunks.map written = (chunks.map triple).map fun read => read.2.1 ++ " " ++ read.2.2 := by
  rw [List.map_map]
  rfl

theorem written_of_triple (first second : List Chunk)
    (same : first.map triple = second.map triple) :
    (first.filter kept).map written = (second.filter kept).map written := by
  rw [map_written, map_written, filter_kept, filter_kept, same]

theorem written_ne (chunk : Chunk) : chunk.written ≠ "" := by
  simp [written, String.append_eq_empty_iff]

theorem shown_ne_iff (chunk : Chunk) : chunk.shown ≠ "" ↔ chunk.kept = true := by
  unfold shown
  cases chunk.kept <;> simp [written_ne]

theorem line_ne (headed : Bool) (chunk : Chunk) (kept : chunk.kept = true) :
    chunk.line headed ≠ "" := by
  unfold line
  split
  · rename_i condition
    simp only [Bool.and_eq_true, decide_eq_true_eq] at condition
    simpa [Chunk.kept, condition.1] using kept
  · exact chunk.written_ne

end Chunk

namespace Phrase

structure Ready (phrase : Phrase) : Prop where
  fault : phrase.fault = none
  trail : phrase.trail = some ""
  lead : phrase.lead ≠ none

def shown (phrase : Phrase) : String :=
  if phrase.hasText then phrase.lead.getD "" ++ phrase.text else ""

def unled (phrase : Phrase) : String := if phrase.hasText then phrase.text else ""

variable {phrase : Phrase}

theorem Ready.render (ready : phrase.Ready) : phrase.render = .ok phrase.shown := by
  obtain ⟨lead, leads⟩ := Option.ne_none_iff_exists'.mp ready.lead
  cases given : phrase.hasText <;>
    simp [Phrase.render, renderWith, isEmpty, shown, ready.fault, ready.trail, leads, given]

theorem Ready.renderHeadless (ready : phrase.Ready) : phrase.renderHeadless = .ok phrase.unled := by
  cases given : phrase.hasText <;>
    simp [Phrase.renderHeadless, renderWith, isEmpty, unled, ready.fault, ready.trail, given]

theorem Ready.hydrate (ready : phrase.Ready) (lead body : String) :
    (phrase.hydrate lead body).Ready := by
  unfold Phrase.hydrate
  split
  · exact ⟨rfl, ready.trail, by simp⟩
  · exact ⟨rfl, ready.trail, by simp [attach]⟩

theorem shown_hydrate (phrase : Phrase) (lead body : String) :
    (phrase.hydrate lead body).shown = if body.isEmpty then "" else lead ++ body := by
  unfold hydrate
  split
  · rfl
  · simp [shown, attach, reset]

theorem unled_hydrate (phrase : Phrase) (lead body : String) :
    (phrase.hydrate lead body).unled = body := by
  unfold hydrate
  split
  · rename_i empty
    exact (String.isEmpty_iff.mp empty).symm
  · simp [unled, attach, reset]

end Phrase

namespace SelectStatement

def phraseOf (statement : SelectStatement) : Clause → Phrase
  | .select => statement.columns
  | .source => statement.source.phrase
  | .join => statement.joins.phrase
  | .condition => statement.condition.clause.phrase
  | .groupBy => statement.grouping
  | .having => statement.groupCondition.clause.phrase
  | .orderBy => statement.ordering
  | .offset => statement.offset
  | .limit => statement.limit

def take (statement : SelectStatement) (chunk : Chunk) : SelectStatement :=
  match chunk.clause with
  | some clause => statement.hydrate clause chunk.keyword chunk.body
  | none => statement

theorem takeChunks_eq_iff (clauses : List Clause) (chunks : List Chunk)
    (statement taken : SelectStatement) :
    takeChunks clauses chunks statement = (taken, []) ↔
      List.Sublist (chunks.map Chunk.clause) (clauses.map some) ∧
        chunks.foldl take statement = taken := by
  induction clauses generalizing chunks statement with
  | nil =>
    cases chunks with
    | nil => simp [takeChunks]
    | cons chunk chunks => simp [takeChunks]
  | cons clause clauses ih =>
    cases chunks with
    | nil => simp [takeChunks]
    | cons chunk chunks =>
      rw [takeChunks, List.map_cons, List.map_cons, List.foldl_cons]
      split
      · rename_i same
        rw [ih, same, List.cons_sublist_cons, take, same]
      · rename_i other
        rw [ih, List.map_cons, List.foldl_cons]
        constructor
        · intro both
          exact ⟨both.1.cons _, both.2⟩
        · intro both
          refine ⟨?_, both.2⟩
          rcases List.sublist_cons_iff.mp both.1 with later | ⟨tail, same, _⟩
          · exact later
          · exact absurd (List.cons.inj same).1 other

theorem phraseOf_hydrate_other (statement : SelectStatement) (clause other : Clause)
    (keyword body : String) (different : other ≠ clause) :
    (statement.hydrate clause keyword body).phraseOf other = statement.phraseOf other := by
  cases clause <;> cases other <;> first | rfl | exact absurd rfl different

theorem shown_hydrate (statement : SelectStatement) (clause : Clause) (chunk : Chunk)
    (same : chunk.clause = some clause) :
    ((statement.hydrate clause chunk.keyword chunk.body).phraseOf clause).shown = chunk.shown := by
  have own (phrase : Phrase) (bodied : clause ≠ .join) :
      (phrase.hydrate (chunk.keyword ++ " ") chunk.body).shown = chunk.shown := by
    rw [Phrase.shown_hydrate, Chunk.shown, Chunk.kept, same]
    cases blank : chunk.body.isEmpty <;> simp [bodied, Chunk.written]
  cases clause with
  | join =>
    have kept : chunk.kept = true := by simp [Chunk.kept, same]
    have text : (chunk.keyword ++ " " ++ chunk.body).isEmpty = false := by
      simp [String.append_eq_empty_iff]
    rw [Chunk.shown, kept, if_pos rfl, Chunk.written]
    refine (Phrase.shown_hydrate statement.joins.phrase "" _).trans ?_
    simp only [text, Bool.false_eq_true, if_false, String.empty_append]
  | _ => exact own _ (by decide)

theorem ready_hydrate (statement : SelectStatement) (clause : Clause) (keyword body : String)
    (ready : ∀ other, (statement.phraseOf other).Ready) :
    ∀ other, ((statement.hydrate clause keyword body).phraseOf other).Ready := by
  intro other
  by_cases same : other = clause
  · subst same
    have own := ready other
    cases other <;> exact own.hydrate _ _
  · rw [phraseOf_hydrate_other statement clause other keyword body same]
    exact ready other

theorem ready_foldl (chunks : List Chunk) (statement : SelectStatement)
    (ready : ∀ clause, (statement.phraseOf clause).Ready) :
    ∀ clause, ((chunks.foldl take statement).phraseOf clause).Ready := by
  induction chunks generalizing statement with
  | nil => exact ready
  | cons chunk rest ih =>
    refine ih _ fun clause => ?_
    unfold take
    split
    · exact ready_hydrate statement _ _ _ ready clause
    · exact ready clause

theorem params_foldl (chunks : List Chunk) (statement : SelectStatement)
    (unbound : statement.params = []) : (chunks.foldl take statement).params = [] := by
  induction chunks generalizing statement with
  | nil => exact unbound
  | cons chunk rest ih =>
    apply ih
    unfold take
    split
    · rename_i clause _
      simp only [params, List.append_eq_nil_iff] at unbound ⊢
      obtain ⟨⟨⟨source, joins⟩, condition⟩, groupCondition⟩ := unbound
      cases clause with
      | source => exact ⟨⟨⟨rfl, joins⟩, condition⟩, groupCondition⟩
      | join => exact ⟨⟨⟨source, rfl⟩, condition⟩, groupCondition⟩
      | condition => exact ⟨⟨⟨source, joins⟩, rfl⟩, groupCondition⟩
      | having => exact ⟨⟨⟨source, joins⟩, condition⟩, rfl⟩
      | _ => exact ⟨⟨⟨source, joins⟩, condition⟩, groupCondition⟩
    · exact unbound

theorem quantifier_foldl (chunks : List Chunk) (statement : SelectStatement) :
    (chunks.foldl take statement).quantifier = statement.quantifier := by
  induction chunks generalizing statement with
  | nil => rfl
  | cons chunk rest ih =>
    rw [List.foldl_cons, ih]
    unfold take
    split
    · rename_i clause _
      cases clause <;> rfl
    · rfl

theorem phraseOf_foldl_absent (chunks : List Chunk) (statement : SelectStatement)
    (clause : Clause) (absent : ∀ chunk ∈ chunks, chunk.clause ≠ some clause) :
    (chunks.foldl take statement).phraseOf clause = statement.phraseOf clause := by
  induction chunks generalizing statement with
  | nil => rfl
  | cons chunk rest ih =>
    rw [List.foldl_cons, ih _ fun other member => absent other (List.mem_cons_of_mem _ member)]
    unfold take
    split
    · rename_i own found
      apply phraseOf_hydrate_other
      intro same
      exact absent chunk List.mem_cons_self (by rw [found, same])
    · rfl

theorem phraseOf_foldl (chunks : List Chunk) (statement : SelectStatement)
    (distinct : (chunks.map Chunk.clause).Nodup) (clause : Clause) (chunk : Chunk)
    (member : chunk ∈ chunks) (same : chunk.clause = some clause) :
    ∃ before : SelectStatement, (chunks.foldl take statement).phraseOf clause =
      (before.hydrate clause chunk.keyword chunk.body).phraseOf clause := by
  induction chunks generalizing statement with
  | nil => cases member
  | cons first rest ih =>
    rw [List.map_cons, List.nodup_cons] at distinct
    rw [List.foldl_cons]
    rcases List.mem_cons.mp member with rfl | later
    · refine ⟨statement, ?_⟩
      rw [phraseOf_foldl_absent, take, same]
      intro other member again
      exact distinct.1 (List.mem_map.mpr ⟨other, member, by rw [again, same]⟩)
    · exact ih _ distinct.2 later

theorem filter_texts (clauses : List Clause) (chunks : List Chunk) (text : Clause → String)
    (line : Chunk → String)
    (ordered : List.Sublist (chunks.map Chunk.clause) (clauses.map some))
    (distinct : clauses.Nodup)
    (present : ∀ chunk ∈ chunks, ∀ clause, chunk.clause = some clause →
      text clause = if chunk.kept then line chunk else "")
    (filled : ∀ chunk ∈ chunks, chunk.kept = true → line chunk ≠ "")
    (absent : ∀ clause ∈ clauses, (∀ chunk ∈ chunks, chunk.clause ≠ some clause) →
      text clause = "") :
    (clauses.map text).filter (fun shown => !shown.isEmpty) =
      (chunks.filter Chunk.kept).map line := by
  induction clauses generalizing chunks with
  | nil =>
    rw [List.map_nil, List.sublist_nil, List.map_eq_nil_iff] at ordered
    rw [ordered]
    rfl
  | cons clause clauses ih =>
    rw [List.nodup_cons] at distinct
    have unlisted : ∀ chunk ∈ chunks, List.Sublist (chunks.map Chunk.clause) (clauses.map some) →
        chunk.clause ≠ some clause := by
      intro chunk member later same
      have listed := later.mem (List.mem_map.mpr ⟨chunk, member, same⟩)
      obtain ⟨other, held, equal⟩ := List.mem_map.mp listed
      cases equal
      exact distinct.1 held
    rw [List.map_cons, List.filter_cons]
    -- The chunk of the clause comes next, if it has one.
    rcases List.sublist_cons_iff.mp ordered with later | ⟨tail, split, later⟩
    · have blank := absent clause List.mem_cons_self fun chunk member => unlisted chunk member later
      rw [blank]
      exact ih chunks later distinct.2 present filled fun other held =>
        absent other (List.mem_cons_of_mem _ held)
    · obtain ⟨chunk, rest, rfl, same, rfl⟩ := List.map_eq_cons_iff.mp split
      have own := present chunk List.mem_cons_self clause same
      have others := ih rest later distinct.2
        (fun other member => present other (List.mem_cons_of_mem _ member))
        (fun other member => filled other (List.mem_cons_of_mem _ member))
        (fun other held missing => absent other (List.mem_cons_of_mem _ held) fun any member => ?_)
      · rw [own, List.filter_cons, others]
        cases kept : chunk.kept with
        | false => rfl
        | true => simp [filled chunk List.mem_cons_self kept]
      · rcases List.mem_cons.mp member with rfl | among
        · intro again
          rw [same] at again
          cases again
          exact distinct.1 held
        · exact missing any among

def headed (statement : SelectStatement) : Bool :=
  !(statement.phraseOf .select).shown.isEmpty || !(statement.phraseOf .source).shown.isEmpty ||
    !(statement.phraseOf .join).shown.isEmpty

def lineOf (statement : SelectStatement) (clause : Clause) : String :=
  if clause = .condition && !statement.headed then (statement.phraseOf clause).unled
  else (statement.phraseOf clause).shown

theorem render_of_ready (statement : SelectStatement) (plain : statement.quantifier.isEmpty = true)
    (ready : ∀ clause, (statement.phraseOf clause).Ready) :
    statement.render = .ok (joinClauses (Clause.all.map statement.lineOf)) := by
  have columns : statement.renderColumns = .ok (statement.phraseOf .select).shown := by
    rw [renderColumns, if_pos plain]
    exact (ready .select).render
  have source : statement.source.render = .ok _ := (ready .source).render
  have joins : statement.joins.render = .ok _ := (ready .join).render
  have grouping : statement.grouping.render = .ok _ := (ready .groupBy).render
  have groupCondition : statement.groupCondition.render = .ok _ := (ready .having).render
  have ordering : statement.ordering.render = .ok _ := (ready .orderBy).render
  have offset : statement.offset.render = .ok _ := (ready .offset).render
  have limit : statement.limit.render = .ok _ := (ready .limit).render
  have condition :
      statement.condition.renderHeaded statement.headed = .ok (statement.lineOf .condition) := by
    cases heading : statement.headed with
    | true =>
      rw [lineOf, heading]
      exact (ready .condition).render
    | false =>
      rw [lineOf, heading]
      exact (ready .condition).renderHeadless
  rw [headed] at condition
  rw [render, columns, source, joins]
  simp only [bind, Except.bind, condition, grouping, groupCondition, ordering, offset, limit]
  rfl

section Chunks

variable (chunks : List Chunk) (statement : SelectStatement)
  (taken : takeChunks Clause.all chunks {} = (statement, []))
include taken

theorem distinct_of_taken : (chunks.map Chunk.clause).Nodup := by
  have listed : (Clause.all.map some).Nodup := by decide
  exact ((takeChunks_eq_iff _ _ _ _).mp taken).1.nodup listed

theorem shown_of_taken (chunk : Chunk) (member : chunk ∈ chunks) (clause : Clause)
    (same : chunk.clause = some clause) : (statement.phraseOf clause).shown = chunk.shown := by
  have distinct := distinct_of_taken chunks statement taken
  obtain ⟨_, rfl⟩ := (takeChunks_eq_iff _ _ _ _).mp taken
  obtain ⟨before, holds⟩ := phraseOf_foldl chunks {} distinct clause chunk member same
  rw [holds, shown_hydrate before clause chunk same]

theorem unled_of_taken (chunk : Chunk) (member : chunk ∈ chunks)
    (same : chunk.clause = some .condition) :
    (statement.phraseOf .condition).unled = chunk.body := by
  have distinct := distinct_of_taken chunks statement taken
  obtain ⟨_, rfl⟩ := (takeChunks_eq_iff _ _ _ _).mp taken
  obtain ⟨before, holds⟩ := phraseOf_foldl chunks {} distinct .condition chunk member same
  rw [holds]
  exact Phrase.unled_hydrate _ _ _

theorem empty_of_untaken (clause : Clause) (missing : ∀ chunk ∈ chunks, chunk.clause ≠ some clause) :
    (statement.phraseOf clause).shown = "" ∧ (statement.phraseOf clause).unled = "" := by
  obtain ⟨_, rfl⟩ := (takeChunks_eq_iff _ _ _ _).mp taken
  rw [phraseOf_foldl_absent chunks {} clause missing]
  cases clause <;> exact ⟨rfl, rfl⟩

theorem shown_ne_of_taken (clause : Clause) :
    (statement.phraseOf clause).shown ≠ "" ↔
      ∃ chunk ∈ chunks, chunk.clause = some clause ∧ chunk.kept = true := by
  constructor
  · intro filled
    by_contra unkept
    by_cases found : ∃ chunk ∈ chunks, chunk.clause = some clause
    · obtain ⟨chunk, member, same⟩ := found
      rw [shown_of_taken chunks statement taken chunk member clause same, chunk.shown_ne_iff]
        at filled
      exact unkept ⟨chunk, member, same, filled⟩
    · have missing : ∀ chunk ∈ chunks, chunk.clause ≠ some clause := fun chunk member same =>
        found ⟨chunk, member, same⟩
      exact filled (empty_of_untaken chunks statement taken clause missing).1
  · intro found
    obtain ⟨chunk, member, same, kept⟩ := found
    rw [shown_of_taken chunks statement taken chunk member clause same, chunk.shown_ne_iff]
    exact kept

theorem headed_of_taken : statement.headed = Chunk.headed Chunk.kept chunks := by
  have filled := shown_ne_of_taken chunks statement taken
  rw [Bool.eq_iff_iff]
  simp only [headed, Chunk.headed, Bool.or_eq_true, Bool.not_eq_true', String.isEmpty_eq_false_iff,
    filled, List.any_eq_true, Bool.and_eq_true, decide_eq_true_eq]
  constructor
  · intro found
    obtain (⟨chunk, member, same, kept⟩ | ⟨chunk, member, same, kept⟩) |
      ⟨chunk, member, same, kept⟩ := found
    · exact ⟨chunk, member, .inl (.inl same), kept⟩
    · exact ⟨chunk, member, .inl (.inr same), kept⟩
    · exact ⟨chunk, member, .inr same, kept⟩
  · intro found
    obtain ⟨chunk, member, (same | same) | same, kept⟩ := found
    · exact .inl (.inl ⟨chunk, member, same, kept⟩)
    · exact .inl (.inr ⟨chunk, member, same, kept⟩)
    · exact .inr ⟨chunk, member, same, kept⟩

theorem lineOf_of_taken (chunk : Chunk) (member : chunk ∈ chunks) (clause : Clause)
    (same : chunk.clause = some clause) :
    statement.lineOf clause = if chunk.kept then chunk.line statement.headed else "" := by
  have line : chunk.line statement.headed =
      if clause = .condition && !statement.headed then chunk.body else chunk.written := by
    simp only [Chunk.line, same, Option.some.injEq]
  rw [lineOf, line]
  split
  · rename_i unheaded
    simp only [Bool.and_eq_true, decide_eq_true_eq] at unheaded
    obtain ⟨rfl, _⟩ := unheaded
    rw [unled_of_taken chunks statement taken chunk member same]
    cases kept : chunk.kept with
    | true => rfl
    | false => simpa [Chunk.kept, same] using kept
  · exact shown_of_taken chunks statement taken chunk member clause same

theorem render_layout : statement.render = .ok (Chunk.layout Chunk.kept chunks) := by
  have line := lineOf_of_taken chunks statement taken
  have empty := empty_of_untaken chunks statement taken
  have headed := headed_of_taken chunks statement taken
  obtain ⟨ordered, made⟩ := (takeChunks_eq_iff _ _ _ _).mp taken
  have ready : ∀ clause, (statement.phraseOf clause).Ready := by
    rw [← made]
    apply ready_foldl
    intro clause
    cases clause <;> exact ⟨rfl, rfl, by decide⟩
  have plain : statement.quantifier.isEmpty = true := by
    rw [Phrase.isEmpty, ← made, quantifier_foldl]
    rfl
  have texts := filter_texts Clause.all chunks statement.lineOf (Chunk.line statement.headed) ordered
    (by decide) line (fun chunk _ kept => chunk.line_ne _ kept) fun clause _ missing => ?_
  · rw [render_of_ready statement plain ready, joinClauses, texts, headed]
    rfl
  · obtain ⟨shown, unled⟩ := empty clause missing
    rw [lineOf, shown, unled, ite_self]

omit taken in
theorem line_of_headed (headed : Headed chunks) (chunk : Chunk) (member : chunk ∈ chunks)
    (kept : chunk.kept = true) : chunk.line (Chunk.headed Chunk.kept chunks) = chunk.written := by
  rw [Chunk.line, if_neg]
  intro unheaded
  simp only [Bool.and_eq_true, decide_eq_true_eq, Bool.not_eq_true'] at unheaded
  obtain ⟨condition, unled⟩ := unheaded
  have never (other : Chunk) (held : other ∈ chunks) (left : other.kept = true)
      (leads : (other.clause = some .select ∨ other.clause = some .source) ∨
        other.clause = some .join) : False := by
    rw [Chunk.headed, List.any_eq_false] at unled
    exact unled other held (by simpa [left] using leads)
  obtain ⟨other, held, named, bodied⟩ | ⟨other, held, join⟩ | blank := headed
  · exact never other held (by simp [Chunk.kept, bodied]) (.inl named)
  · exact never other held (by simp [Chunk.kept, join]) (.inr join)
  · rw [Chunk.kept, condition, blank chunk member condition] at kept
    cases kept

theorem render_of_chunks (headed : Headed chunks) :
    statement.render = .ok (" ".intercalate ((chunks.filter Chunk.kept).map Chunk.written)) := by
  have lines : (chunks.filter Chunk.kept).map (Chunk.line (Chunk.headed Chunk.kept chunks)) =
      (chunks.filter Chunk.kept).map Chunk.written := by
    apply List.map_congr_left
    intro chunk member
    obtain ⟨held, kept⟩ := List.mem_filter.mp member
    exact line_of_headed chunks headed chunk held kept
  rw [render_layout chunks statement taken, Chunk.layout, lines]

end Chunks

theorem parse_eq_ok_iff (sql : String) (chunks : List Chunk) (statement : SelectStatement)
    (tokenized : tokenize sql = .ok chunks) :
    parse sql = .ok statement ↔ takeChunks Clause.all chunks {} = (statement, []) := by
  rw [parse, tokenized]
  simp only [bind, Except.bind]
  constructor
  · intro parsed
    split at parsed
    · rename_i taken
      cases parsed
      exact taken
    · cases parsed
  · intro taken
    rw [taken]
    rfl

end SelectStatement

end SqlCompose
