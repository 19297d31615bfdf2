import SqlCompose.Proofs.ParsedLayout

/-! What a parsed statement renders to is parsed to the same clauses. -/
namespace SqlCompose

namespace SelectStatement

theorem headed_of_triple (chunks reread : List Chunk)
    (same : reread.map Chunk.triple = (chunks.filter Chunk.kept).map Chunk.triple)
    (headed : Headed chunks) : Headed reread := by
  have again (chunk : Chunk) (member : chunk ∈ chunks) (kept : chunk.kept = true) :
      ∃ other ∈ reread, other.clause = chunk.clause ∧ other.body = chunk.body := by
    have listed : chunk.triple ∈ reread.map Chunk.triple := by
      rw [same]
      exact List.mem_map.mpr ⟨chunk, List.mem_filter.mpr ⟨member, kept⟩, rfl⟩
    obtain ⟨other, held, equal⟩ := List.mem_map.mp listed
    exact ⟨other, held, congrArg Prod.fst equal, congrArg (fun read => read.2.2) equal⟩
  rcases headed with ⟨chunk, member, named, bodied⟩ | ⟨chunk, member, join⟩ | blank
  · obtain ⟨other, held, clause, body⟩ := again chunk member (by simp [Chunk.kept, bodied])
    exact .inl ⟨other, held, by rw [clause]; exact named, by rw [body]; exact bodied⟩
  · obtain ⟨other, held, clause, _⟩ := again chunk member (by simp [Chunk.kept, join])
    exact .inr (.inl ⟨other, held, by rw [clause]; exact join⟩)
  · right; right
    intro other held condition
    have listed : other.triple ∈ (chunks.filter Chunk.kept).map Chunk.triple := by
      rw [← same]
      exact List.mem_map.mpr ⟨other, held, rfl⟩
    obtain ⟨chunk, filtered, equal⟩ := List.mem_map.mp listed
    have clause : chunk.clause = other.clause := congrArg Prod.fst equal
    have body : chunk.body = other.body := congrArg (fun read => read.2.2) equal
    rw [← body]
    exact blank chunk (List.mem_of_mem_filter filtered) (by rw [clause, condition])

end SelectStatement

namespace Lexed.Written

def triple (written : Written) : Option Clause × String × String :=
  (some written.clause, String.ofList written.keyword, String.ofList written.body)

theorem triple_tagged (lexed : Lexed) :
    lexed.tagged.map Chunk.triple = (lexed.parts.map ofPart).map triple := by
  rw [tagged, List.map_map, List.map_map]
  refine List.map_congr_left fun part _ => ?_
  simp [Chunk.triple, Chunk.keyword, Chunk.body, ofPart, triple]

theorem ofList_text (written : Written) :
    String.ofList written.text = written.triple.2.1 ++ " " ++ written.triple.2.2 := by
  rw [text, ← List.singleton_append, String.ofList_append, String.ofList_append,
    ← String.append_assoc]
  rfl

theorem joined_eq_intercalate (list : List Written) :
    String.ofList (joined list) =
      " ".intercalate ((list.map triple).map fun read => read.2.1 ++ " " ++ read.2.2) := by
  induction list with
  | nil => rfl
  | cons written rest ih =>
    cases rest with
    | nil => simp [joined, ofList_text]
    | cons next rest =>
      rw [joined, ← List.singleton_append, String.ofList_append, String.ofList_append, ih,
        ofList_text]
      simp only [List.map_cons, String.intercalate_cons_cons, String.append_assoc]

theorem tokenize_joined (list : List Written) (sound : ∀ written ∈ list, written.Sound) :
    ∃ chunks, tokenize (String.ofList (joined list)) = .ok chunks ∧
      chunks.map Chunk.triple = list.map triple := by
  obtain ⟨lead, closed, parts⟩ := ofText_joined list sound
  refine ⟨(ofText true (joined list)).tagged, ?_, ?_⟩
  · have leading : (ofText true (joined list)).leading = [] := by
      rw [Lexed.leading, lead]
      rfl
    simp only [tokenize, String.toList_ofList, closed, chunks, leading, List.nil_append]
  · rw [triple_tagged, parts]

end Lexed.Written

theorem tokenize_of_shown (sql : String) (chunks : List Chunk)
    (shown : (tokenize sql).toOption.map (List.map fun chunk => (chunk.clause, chunk.text)) =
      some (chunks.map fun chunk => (chunk.clause, chunk.text))) :
    tokenize sql = .ok chunks := by
  have injective : Function.Injective fun chunk : Chunk => (chunk.clause, chunk.text) := by
    intro first second same
    cases first
    cases second
    cases same
    rfl
  cases tokenized : tokenize sql with
  | error error =>
    rw [tokenized] at shown
    cases shown
  | ok found =>
    rw [tokenized] at shown
    rw [injective.list_map (Option.some.inj shown)]

/-- The chunks of a text whose blanks are ASCII blanks can be put together again. -/
theorem tokenize_sound (sql : String) (chunks : List Chunk)
    (blank : ∀ char ∈ sql.toList, Text.isBlank char → Text.isAsciiBlank char)
    (tokenized : tokenize sql = .ok chunks) (named : ∀ chunk ∈ chunks, chunk.clause ≠ none) :
    ∃ list : List Lexed.Written, (∀ written ∈ list, written.Sound) ∧
      chunks.map Chunk.triple = list.map Lexed.Written.triple := by
  rw [tokenize] at tokenized
  split at tokenized
  · rename_i closed
    cases tokenized
    have leading : (Lexed.ofText true sql.toList).leading = [] := by
      by_contra lead
      rw [Lexed.leading] at lead
      split at lead
      · exact lead rfl
      · rename_i filled
        refine named ⟨none, String.ofList (Lexed.ofText true sql.toList).lead⟩ ?_ rfl
        rw [Lexed.chunks, Lexed.leading, if_neg filled]
        exact List.mem_append_left _ List.mem_cons_self
    refine ⟨(Lexed.ofText true sql.toList).parts.map Lexed.Written.ofPart, ?_, ?_⟩
    · intro written member
      obtain ⟨part, held, rfl⟩ := List.mem_map.mp member
      exact Lexed.Written.sound_of_text sql.toList closed blank part held
    · rw [Lexed.chunks, leading, List.nil_append, Lexed.Written.triple_tagged]
  · cases tokenized

namespace SelectStatement

/-- What a parsed statement renders to is parsed to the same clauses, as they were written, less those
without a body, and renders to itself again. A condition that lost its keyword would not be read
back, so the statement has to be headed. -/
theorem parse_render_parse (sql : String)
    (blank : ∀ char ∈ sql.toList, Text.isBlank char → Text.isAsciiBlank char)
    (chunks : List Chunk) (tokenized : tokenize sql = .ok chunks)
    (statement : SelectStatement) (parsed : parse sql = .ok statement)
    (headed : Headed chunks) :
    ∃ rendered, statement.render = .ok rendered ∧
      ∃ reread again, tokenize rendered = .ok reread ∧
        reread.map Chunk.triple = (chunks.filter Chunk.kept).map Chunk.triple ∧
        parse rendered = .ok again ∧ again.render = .ok rendered := by
  have taken := (parse_eq_ok_iff sql chunks statement tokenized).mp parsed
  obtain ⟨ordered, _⟩ := (takeChunks_eq_iff _ _ _ _).mp taken
  have named : ∀ chunk ∈ chunks, chunk.clause ≠ none := by
    intro chunk member unnamed
    have listed := ordered.mem (List.mem_map.mpr ⟨chunk, member, rfl⟩)
    rw [unnamed] at listed
    revert listed
    decide
  obtain ⟨list, sound, read⟩ := tokenize_sound sql chunks blank tokenized named
  -- What is left of the text is put together from the clauses that show something.
  have filtered := Chunk.filter_kept chunks
  rw [read, List.filter_map] at filtered
  have rendered := render_of_chunks chunks statement taken headed
  rw [Chunk.map_written, filtered, ← Lexed.Written.joined_eq_intercalate] at rendered
  obtain ⟨reread, retokenized, same⟩ := Lexed.Written.tokenize_joined _
    fun written member => sound written (List.mem_of_mem_filter member)
  rw [← filtered] at same
  have clauses : reread.map Chunk.clause = (chunks.filter Chunk.kept).map Chunk.clause := by
    have firsts := congrArg (List.map Prod.fst) same
    rwa [List.map_map, List.map_map] at firsts
  have reordered : List.Sublist (reread.map Chunk.clause) (Clause.all.map some) := by
    rw [clauses]
    exact (List.filter_sublist.map Chunk.clause).trans ordered
  have retaken := (takeChunks_eq_iff Clause.all reread {} _).mpr ⟨reordered, rfl⟩
  have rerendered := render_of_chunks reread _ retaken (headed_of_triple chunks reread same headed)
  rw [Chunk.written_of_triple _ _ same, List.filter_filter] at rerendered
  simp only [Bool.and_self] at rerendered
  rw [Chunk.map_written, filtered, ← Lexed.Written.joined_eq_intercalate] at rerendered
  exact ⟨_, rendered, reread, _, retokenized, same,
    (parse_eq_ok_iff _ reread _ retokenized).mpr retaken, rerendered⟩

theorem parse_render_parse_bodiless_join :
    ∃ statement reread again,
      parse "select a,\t'from'\nfrom (t where x) join  WHERE b = ? order by \n limit 3" =
        .ok statement ∧
      statement.render = .ok "select a,\t'from' from (t where x) join  WHERE b = ? limit 3" ∧
      tokenize "select a,\t'from' from (t where x) join  WHERE b = ? limit 3" = .ok reread ∧
      reread.map Chunk.triple = [(some .select, "select", "a,\t'from'"),
        (some .source, "from", "(t where x)"), (some .join, "join", ""),
        (some .condition, "WHERE", "b = ?"), (some .limit, "limit", "3")] ∧
      parse "select a,\t'from' from (t where x) join  WHERE b = ? limit 3" = .ok again ∧
      again.render = .ok "select a,\t'from' from (t where x) join  WHERE b = ? limit 3" := by
  have shown : (tokenize
      "select a,\t'from'\nfrom (t where x) join  WHERE b = ? order by \n limit 3").toOption.map
        (List.map Chunk.triple) = some [(some .select, "select", "a,\t'from'"),
          (some .source, "from", "(t where x)"), (some .join, "join", ""),
          (some .condition, "WHERE", "b = ?"), (some .orderBy, "order by", ""),
          (some .limit, "limit", "3")] := by
    decide +kernel
  have blanks :
      ("select a,\t'from'\nfrom (t where x) join  WHERE b = ? order by \n limit 3".toList.all
        fun char => !Text.isBlank char || Text.isAsciiBlank char) = true := by
    decide
  rw [List.all_eq_true] at blanks
  cases tokenized : tokenize
      "select a,\t'from'\nfrom (t where x) join  WHERE b = ? order by \n limit 3" with
  | error error =>
    rw [tokenized] at shown
    cases shown
  | ok chunks =>
    rw [tokenized] at shown
    have read := Option.some.inj shown
    have clauses : chunks.map Chunk.clause = [some .select, some .source, some .join,
        some .condition, some .orderBy, some .limit] := by
      have firsts := congrArg (List.map Prod.fst) read
      rwa [List.map_map] at firsts
    have taken := (takeChunks_eq_iff Clause.all chunks {} _).mpr
      ⟨by rw [clauses]; decide, rfl⟩
    have parsed := (parse_eq_ok_iff _ chunks _ tokenized).mpr taken
    have headed : Headed chunks := by
      right; left
      have listed : some Clause.join ∈ chunks.map Chunk.clause := by simp [clauses]
      exact List.mem_map.mp listed
    obtain ⟨rendered, text, reread, again, retokenized, same, reparsed, rerendered⟩ :=
      parse_render_parse _ (fun char member blank => by simpa [blank] using blanks char member)
        chunks tokenized _ parsed headed
    have kept := Chunk.filter_kept chunks
    rw [read] at kept
    have written := render_of_chunks chunks _ taken headed
    rw [Chunk.map_written, kept] at written
    cases text.symm.trans written
    refine ⟨_, reread, again, parsed, text, retokenized, ?_, reparsed, rerendered⟩
    rw [same, kept]
    decide

end SelectStatement

end SqlCompose
