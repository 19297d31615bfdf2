import SqlCompose.History.Parsed
import SqlCompose.Proofs.Reparsing
import SqlCompose.Proofs.Seams
import SqlCompose.Proofs.SelectLayout

/-! What a history of calls renders to is read back clause by clause, if its texts can be. -/
namespace SqlCompose

namespace SelectStatement

open Lexed

theorem parse_joined (list : List Written) (sound : ∀ written ∈ list, written.Sound)
    (bodied : ∀ written ∈ list, written.body ≠ [])
    (ordered : List.Sublist (list.map Written.clause) Clause.all)
    (headed : (∃ written ∈ list, written.clause = .condition) →
      ∃ written ∈ list, written.clause = .select ∨ written.clause = .source ∨
        written.clause = .join) :
    ∃ statement, parse (String.ofList (Written.joined list)) = .ok statement ∧
      statement.rendering =
        { text := .ok (String.ofList (Written.joined list)), params := [] } := by
  obtain ⟨chunks, tokenized, read⟩ := Written.tokenize_joined list sound
  have back (chunk : Chunk) (member : chunk ∈ chunks) :
      ∃ written ∈ list, written.triple = chunk.triple := by
    have listed : chunk.triple ∈ chunks.map Chunk.triple :=
      List.mem_map.mpr ⟨chunk, member, rfl⟩
    rw [read] at listed
    exact List.mem_map.mp listed
  have forth (written : Written) (member : written ∈ list) :
      ∃ chunk ∈ chunks, chunk.triple = written.triple := by
    have listed : written.triple ∈ list.map Written.triple :=
      List.mem_map.mpr ⟨written, member, rfl⟩
    rw [← read] at listed
    exact List.mem_map.mp listed
  have body (chunk : Chunk) (member : chunk ∈ chunks) : chunk.body ≠ "" := by
    obtain ⟨written, listed, same⟩ := back chunk member
    have equal : String.ofList written.body = chunk.body := congrArg (fun read => read.2.2) same
    rw [← equal]
    simpa using bodied written listed
  have clauses : chunks.map Chunk.clause = (list.map Written.clause).map some := by
    have firsts := congrArg (List.map Prod.fst) read
    rw [List.map_map, List.map_map] at firsts
    rw [List.map_map]
    exact firsts
  have taken := (takeChunks_eq_iff Clause.all chunks {} _).mpr
    ⟨by rw [clauses]; exact ordered.map some, rfl⟩
  have parsed := (parse_eq_ok_iff _ chunks _ tokenized).mpr taken
  have heading : Headed chunks := by
    by_cases conditioned : ∃ written ∈ list, written.clause = .condition
    · obtain ⟨written, listed, named⟩ := headed conditioned
      obtain ⟨chunk, member, same⟩ := forth written listed
      have clause : chunk.clause = some written.clause := congrArg Prod.fst same
      rcases named with select | source | join
      · exact .inl ⟨chunk, member, .inl (by rw [clause, select]), body chunk member⟩
      · exact .inl ⟨chunk, member, .inr (by rw [clause, source]), body chunk member⟩
      · exact .inr (.inl ⟨chunk, member, by rw [clause, join]⟩)
    · right; right
      intro chunk member condition
      obtain ⟨written, listed, same⟩ := back chunk member
      have clause : some written.clause = chunk.clause := congrArg Prod.fst same
      rw [condition, Option.some.injEq] at clause
      exact absurd ⟨written, listed, clause⟩ conditioned
  have kept : chunks.filter Chunk.kept = chunks := by
    apply List.filter_eq_self.mpr
    intro chunk member
    simp [Chunk.kept, body chunk member]
  have rendered := render_of_chunks chunks _ taken heading
  rw [kept, Chunk.map_written, read, ← Written.joined_eq_intercalate] at rendered
  refine ⟨_, parsed, ?_⟩
  rw [rendering, rendered, params_foldl chunks {} rfl]

def ledgerOf (calls : List Call) : Clause → Ledger
  | .select => ⟨"SELECT " ++ quantifierWord calls, "", offered .columns calls⟩
  | .condition =>
    let headed := given calls .columns || given calls .source || given calls .joins
    ⟨if headed then "WHERE " else "", "", offered .condition calls⟩
  | clause => ledger calls clause.part

theorem ledgers_eq_map (calls : List Call) : ledgers calls = Clause.all.map (ledgerOf calls) := rfl

theorem offered_connective (part : Part) (free : part.separator? = none) (calls : List Call)
    (offer : Offer) (member : offer ∈ offered part calls) :
    ∃ connective : Connective, offer.joint = some connective.text := by
  obtain ⟨_, made, _, _, rfl, _, offers, _⟩ := (mem_offered part calls offer).mp member
  cases made with
  | condition call =>
    rw [List.mem_singleton.mp offers]
    exact ⟨call.operator, rfl⟩
  | groupCondition call =>
    rw [List.mem_singleton.mp offers]
    exact ⟨call.operator, rfl⟩
  | _ => cases free

theorem neutral_of_offered (calls : List Call) (part : Part) (unjoined : part ≠ .joins)
    (sound : (ledger calls part).misuse? = none) (link : Link)
    (member : link ∈ (Offer.links (offered part calls)).tail) : Neutral link.joint.toList := by
  obtain ⟨offer, held, found⟩ := List.mem_filterMap.mp (List.mem_of_mem_tail member)
  have joint := Offer.joint_of_link offer link found
  cases separated : part.separator? with
  | none =>
    obtain ⟨connective, between⟩ := offered_connective part separated calls offer held
    rw [joint, between, Option.getD_some]
    exact neutral_connective connective
  | some separator =>
    have between := offered_joint part separator separated calls offer held
    cases separator with
    | some separator =>
      have comma : separator = ", " := by
        cases part <;> first | cases separated; rfl | exact absurd rfl unjoined | cases separated
      rw [joint, between, comma]
      exact neutral_comma
    | none =>
      have single : (Offer.links (offered part calls)).length ≤ 1 :=
        (orderly_part calls part sound).single separated
      have several := List.length_pos_of_mem member
      rw [List.length_tail] at several
      omega

theorem standing_offered (calls : List Call) (rereadable : Rereadable calls) (part : Part)
    (unjoined : part ≠ .joins) (sound : (ledger calls part).misuse? = none)
    (given : Offer.links (offered part calls) ≠ []) :
    Standing (Link.joined (Offer.links (offered part calls))).toList := by
  apply standing_joined _ given
  · intro link member
    obtain ⟨offer, held, found⟩ := List.mem_filterMap.mp member
    obtain ⟨fragment, content, _, rfl⟩ := (Offer.link?_eq_some_iff offer link).mp found
    exact standing_of_freestanding _ (rereadable.texts part unjoined offer held fragment content)
  · exact neutral_of_offered calls part unjoined sound

theorem offered_quantifier (calls : List Call) (offer : Offer)
    (member : offer ∈ offered .quantifier calls) :
    offer = .plain none "DISTINCT" ∨ offer = .plain none "ALL" := by
  obtain ⟨_, made, _, _, own, _, offers, _⟩ := (mem_offered .quantifier calls offer).mp member
  cases made with
  | distinct => exact .inl (List.mem_singleton.mp offers)
  | all => exact .inr (List.mem_singleton.mp offers)
  | _ => cases own

theorem quantifierWord_cases (calls : List Call)
    (sound : (ledger calls .quantifier).misuse? = none) :
    quantifierWord calls = "" ∨ quantifierWord calls = "DISTINCT " ∨
      quantifierWord calls = "ALL " := by
  have single := offered_single calls .quantifier sound rfl
  unfold quantifierWord
  cases offers : offered .quantifier calls with
  | nil =>
    left
    rw [Ledger.text?_of_nil _ (by rw [ledger, offers]; rfl)]
  | cons offer rest =>
    have alone : rest = [] := by
      simpa [offers] using single
    right
    rcases offered_quantifier calls offer (by simp [offers]) with rfl | rfl
    · left
      simp only [ledger, offers, alone]
      rfl
    · right
      simp only [ledger, offers, alone]
      rfl

theorem standing_quantified (word : String) (text : String)
    (known : word = "" ∨ word = "DISTINCT " ∨ word = "ALL ") (standing : Standing text.toList) :
    Standing (word ++ text).toList := by
  rw [String.toList_append]
  rcases known with rfl | rfl | rfl
  · exact standing
  · exact standing.quantified ['D', 'I', 'S', 'T', 'I', 'N', 'C', 'T'] _ (by decide) rfl
      (by simp [Text.isBlank, Text.inRanges, Text.blankRanges])
  · exact standing.quantified ['A', 'L', 'L'] _ (by decide) rfl
      (by simp [Text.isBlank, Text.inRanges, Text.blankRanges])

theorem joined_offered (calls : List Call) (rereadable : Rereadable calls)
    (given : Offer.links (offered .joins calls) ≠ []) :
    ∃ body, Link.joined (Offer.links (offered .joins calls)) = "JOIN " ++ body ∧
      Standing body.toList := by
  have single := rereadable.single
  cases links : Offer.links (offered .joins calls) with
  | nil => exact absurd links given
  | cons link rest =>
    have alone : rest = [] := by simpa [links] using single
    have member : link ∈ Offer.links (offered .joins calls) := by simp [links]
    obtain ⟨offer, held, found⟩ := List.mem_filterMap.mp member
    have joined : Link.joined (link :: rest) = link.text := by simp [alone, Link.joined]
    rw [joined]
    obtain ⟨before, made, after, split, own, _, offers, _⟩ :=
      (mem_offered .joins calls offer).mp held
    have called : made ∈ calls := by simp [split]
    obtain ⟨fragment, content, filled, rfl⟩ := (Offer.link?_eq_some_iff offer link).mp found
    cases made with
    | join kind text params =>
      rw [List.mem_singleton.mp offers, Except.ok.injEq] at content
      subst content
      by_cases empty : text = ""
      · exact absurd (congrArg (fun text => (joinFragment kind text params).text) empty) filled
      · obtain ⟨rfl, free⟩ := rereadable.joined kind text params called empty
        refine ⟨text, ?_, standing_of_freestanding text free⟩
        rw [joinFragment_filled _ text params empty]
        rfl
    | joinQuery template query =>
      rw [List.mem_singleton.mp offers] at content
      obtain ⟨inner, substituted, rfl⟩ := (joinQuery_eq_ok_iff template query fragment).mp content
      have free := rereadable.joinedQuery template query inner called substituted
      exact ⟨inner.text, rfl, standing_of_freestanding _ free⟩
    | _ => cases own

theorem text_ledgerOf (calls : List Call) (rereadable : Rereadable calls)
    (sound : ∀ part, (ledger calls part).misuse? = none) (clause : Clause) (text : String)
    (texted : (ledgerOf calls clause).text? = some text) :
    ∃ body, text = clause.keyword ++ " " ++ body ∧ Standing body.toList := by
  have linked : Offer.links (ledgerOf calls clause).offers ≠ [] := by
    intro empty
    rw [Ledger.text?_of_nil _ empty] at texted
    cases texted
  rw [Ledger.text?_of_ne_nil _ linked, Option.some.injEq] at texted
  have plain (part : Part) (unjoined : part ≠ .joins) (lead : clause.keyword ++ " " = part.lead)
      (same : ledgerOf calls clause = ledger calls part) :
      ∃ body, text = clause.keyword ++ " " ++ body ∧ Standing body.toList := by
    rw [same] at linked texted
    refine ⟨_, ?_, standing_offered calls rereadable part unjoined (sound part) linked⟩
    rw [← texted, ledger, String.append_empty, lead]
  cases clause with
  | select =>
    have columns := standing_offered calls rereadable .columns (by decide) (sound .columns) linked
    have word := quantifierWord_cases calls (sound .quantifier)
    refine ⟨_, ?_, standing_quantified _ _ word columns⟩
    rw [← texted, ledgerOf, String.append_empty, ← String.append_assoc]
    rfl
  | condition =>
    have conditioned : given calls .condition = true := by
      simpa [given, ledgerOf] using linked
    have headed : (given calls .columns || given calls .source || given calls .joins) = true := by
      have some_head := rereadable.headed conditioned
      simpa [or_assoc] using some_head
    refine plain .condition (by decide) rfl ?_
    rw [ledgerOf, headed]
    rfl
  | join =>
    obtain ⟨body, joined, standing⟩ := joined_offered calls rereadable linked
    refine ⟨body, ?_, standing⟩
    have lead : Clause.join.keyword ++ " " = "JOIN " := rfl
    rw [← texted, lead, ← joined]
    exact (String.append_empty).trans String.empty_append
  | source => exact plain .source (by decide) rfl rfl
  | groupBy => exact plain .grouping (by decide) rfl rfl
  | having => exact plain .groupCondition (by decide) rfl rfl
  | orderBy => exact plain .ordering (by decide) rfl rfl
  | offset => exact plain .offset (by decide) rfl rfl
  | limit => exact plain .limit (by decide) rfl rfl

def written? (calls : List Call) (clause : Clause) : Option Written :=
  (ledgerOf calls clause).text?.map fun text => Written.ofPart (clause, text.toList)

theorem written?_sound (calls : List Call) (rereadable : Rereadable calls)
    (sound : ∀ part, (ledger calls part).misuse? = none) (clause : Clause) (text : String)
    (texted : (ledgerOf calls clause).text? = some text) :
    ∃ written, written? calls clause = some written ∧ written.clause = clause ∧ written.Sound ∧
      written.body ≠ [] ∧
      text = String.ofList written.keyword ++ " " ++ String.ofList written.body := by
  obtain ⟨body, rfl, standing⟩ := text_ledgerOf calls rereadable sound clause text texted
  have capital : clause.keyword.toList.map Char.toUpper = clause.keyword.toList := by
    cases clause <;> decide
  have own : Written.Sound ⟨clause, clause.keyword.toList, body.toList⟩ :=
    ⟨capital, standing.bare, standing.first, standing.last⟩
  have again := Written.ofPart_text _ own [] (by simp)
  refine ⟨⟨clause, clause.keyword.toList, body.toList⟩, ?_, rfl, own, standing.filled, by simp⟩
  simpa [written?, texted, Written.text, String.toList_append] using again

theorem written?_given (calls : List Call) (clause : Clause) :
    (written? calls clause).isSome = given calls clause.part := by
  rw [written?, Option.isSome_map]
  have offers : (ledgerOf calls clause).offers = offered clause.part calls := by
    cases clause <;> rfl
  by_cases empty : Offer.links (offered clause.part calls) = []
  · rw [Ledger.text?_of_nil _ (by rw [offers, empty]), given, empty]
    rfl
  · rw [Ledger.text?_of_ne_nil _ (by rw [offers]; exact empty), given,
      List.isEmpty_eq_false_iff.mpr empty]
    rfl

def writing (calls : List Call) : List Written := Clause.all.filterMap (written? calls)

theorem written?_eq_some (calls : List Call) (rereadable : Rereadable calls)
    (sound : ∀ part, (ledger calls part).misuse? = none) (clause : Clause) (written : Written)
    (own : written? calls clause = some written) :
    written.clause = clause ∧ written.Sound ∧ written.body ≠ [] := by
  obtain ⟨text, texted, _⟩ := Option.map_eq_some_iff.mp own
  obtain ⟨other, same, named, sound, bodied, _⟩ :=
    written?_sound calls rereadable sound clause text texted
  cases own.symm.trans same
  exact ⟨named, sound, bodied⟩

theorem mem_writing (calls : List Call) (rereadable : Rereadable calls)
    (sound : ∀ part, (ledger calls part).misuse? = none) (written : Written)
    (member : written ∈ writing calls) :
    given calls written.clause.part = true ∧ written.Sound ∧ written.body ≠ [] := by
  obtain ⟨clause, _, own⟩ := List.mem_filterMap.mp member
  obtain ⟨rfl, sound, bodied⟩ := written?_eq_some calls rereadable sound clause written own
  refine ⟨?_, sound, bodied⟩
  rw [← written?_given, own]
  rfl

theorem exists_writing (calls : List Call) (rereadable : Rereadable calls)
    (sound : ∀ part, (ledger calls part).misuse? = none) (clause : Clause)
    (filled : given calls clause.part = true) :
    ∃ written ∈ writing calls, written.clause = clause := by
  rw [← written?_given] at filled
  obtain ⟨written, own⟩ := Option.isSome_iff_exists.mp filled
  have member : written ∈ writing calls := List.mem_filterMap.mpr ⟨clause, clause.mem_all, own⟩
  exact ⟨written, member, (written?_eq_some calls rereadable sound clause written own).1⟩

theorem clauses_writing (calls : List Call) (rereadable : Rereadable calls)
    (sound : ∀ part, (ledger calls part).misuse? = none) :
    List.Sublist ((writing calls).map Written.clause) Clause.all := by
  have clauses : (writing calls).map Written.clause =
      Clause.all.filter fun clause => (written? calls clause).isSome := by
    rw [writing, List.map_filterMap, ← List.filterMap_eq_filter]
    refine List.filterMap_congr fun clause _ => ?_
    cases own : written? calls clause with
    | none => simp [Option.guard, own]
    | some written =>
      have named := (written?_eq_some calls rereadable sound clause written own).1
      simp [Option.guard, own, named]
  rw [clauses]
  exact List.filter_sublist

theorem joined_writing (calls : List Call) (rereadable : Rereadable calls)
    (sound : ∀ part, (ledger calls part).misuse? = none) :
    String.ofList (Written.joined (writing calls)) = Ledger.layout (ledgers calls) := by
  rw [Written.joined_eq_intercalate, List.map_map, writing, List.map_filterMap, Ledger.layout,
    ledgers_eq_map, List.filterMap_map]
  congr 1
  refine List.filterMap_congr fun clause _ => ?_
  cases texted : (ledgerOf calls clause).text? with
  | none => simp [written?, texted]
  | some text =>
    obtain ⟨written, own, _, _, _, same⟩ :=
      written?_sound calls rereadable sound clause text texted
    simp [own, texted, same, Written.triple]

/-- Rereadable clauses are parsed to a statement that renders to the same text again, without
parameters. -/
theorem build_reparses (calls : List Call) (sql : String)
    (built : (ofCalls calls).rendering.text = .ok sql) (rereadable : Rereadable calls) :
    ∃ statement, parse sql = .ok statement ∧
      statement.rendering = { text := .ok sql, params := [] } := by
  have rendered : (ofCalls calls).render = .ok sql := built
  rw [render_ofCalls, outcome_ok_iff] at rendered
  obtain ⟨unmisused, layout⟩ := rendered
  have sound (part : Part) : (ledger calls part).misuse? = none :=
    sound_of_misuses Part.all (fun part => (ledger calls part).misuse?) unmisused part part.mem_all
  have own := mem_writing calls rereadable sound
  have present := exists_writing calls rereadable sound
  have ordered := clauses_writing calls rereadable sound
  rw [← layout, ← joined_writing calls rereadable sound]
  refine parse_joined (writing calls) (fun written member => (own written member).2.1)
    (fun written member => (own written member).2.2) ordered ?_
  rintro ⟨written, member, condition⟩
  have conditioned := (own written member).1
  rw [condition] at conditioned
  rcases rereadable.headed conditioned with columns | source | joins
  · obtain ⟨head, among, named⟩ := present .select columns
    exact ⟨head, among, .inl named⟩
  · obtain ⟨head, among, named⟩ := present .source source
    exact ⟨head, among, .inr (.inl named)⟩
  · obtain ⟨head, among, named⟩ := present .join joins
    exact ⟨head, among, .inr (.inr named)⟩

/-- The keywords of an embedded query and of a literal are not taken for those of the statement. -/
theorem build_reparses_embedded_query :
    ∃ statement,
      parse "SELECT ALL a, ' FROM ' FROM t JOIN u ON a = d WHERE b = ? OR c IN (SELECT d FROM v)" =
        .ok statement ∧
      statement.rendering = {
        text := .ok
          "SELECT ALL a, ' FROM ' FROM t JOIN u ON a = d WHERE b = ? OR c IN (SELECT d FROM v)"
        params := [] } := by
  refine build_reparses [.source "t", .column "a",
    .condition (.expression .and "b = ?" [.bool true]), .join .plain "u ON a = d" [], .all,
    .column "' FROM '",
    .condition (.query .or "c IN ?" (ofCalls [.column "d", .source "v"]).rendering)] _ rfl ?_
  have shown : ∀ text ∈ ["t", "a", "' FROM '", "b = ?", "c IN (SELECT d FROM v)", "u ON a = d",
      "ALL"], text ≠ "" ∧ Text.trimmed text = text ∧
      (tokenize text).toOption.map (List.map fun chunk => (chunk.clause, chunk.text)) =
        some [(none, text)] := by
    decide +kernel
  have free (text : String) (listed : text ∈ ["t", "a", "' FROM '", "b = ?",
      "c IN (SELECT d FROM v)", "u ON a = d", "ALL"]) : Chunk.Freestanding text := by
    obtain ⟨filled, trimmed, read⟩ := shown text listed
    exact ⟨filled, trimmed, ⟨none, text⟩, tokenize_of_shown text _ read, rfl⟩
  refine ⟨?_, ?_, ?_, by decide, by decide⟩
  · intro part unjoined offer member fragment content
    obtain ⟨before, made, after, split, rfl, _, offers, _⟩ := (mem_offered part _ offer).mp member
    have called : made ∈ before ++ made :: after := by simp
    rw [← split] at called
    simp only [List.mem_cons, List.not_mem_nil, or_false] at called
    apply free
    rcases called with rfl | rfl | rfl | rfl | rfl | rfl | rfl
    case inr.inr.inr.inl => exact absurd rfl unjoined
    all_goals
      rw [List.mem_singleton.mp offers] at content
      cases content
      decide
  · intro kind text params member filled
    simp at member
    obtain ⟨rfl, rfl, rfl⟩ := member
    exact ⟨rfl, free _ (by simp)⟩
  · intro template query fragment member
    simp at member

end SelectStatement

end SqlCompose
