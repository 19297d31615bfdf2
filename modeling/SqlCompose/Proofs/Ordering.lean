import SqlCompose.Proofs.ParsedLayout

/-! Statements are parsed from the texts whose clauses are in order, and what is left of any other
text begins with the first chunk that is out of order. -/
namespace SqlCompose

theorem Clause.all_places : all.Pairwise fun earlier later => earlier.place < later.place := by
  decide

namespace Chunk

theorem Ordered.orderly (taken : List Chunk) (ordered : Ordered taken) :
    ∀ front chunk back, taken = front ++ chunk :: back → ¬ chunk.Strays front.getLast? := by
  obtain ⟨clauses, named, increasing⟩ := ordered
  intro front chunk back split strays
  rw [split, List.map_append, List.map_cons] at named
  obtain ⟨before, others, rfl, sames, rest⟩ := List.append_eq_map_iff.mp named
  obtain ⟨own, after, rfl, same, _⟩ := List.map_eq_cons_iff.mp rest
  obtain unnamed | ⟨previous, earlier, later, last, known, also, behind⟩ := strays
  · rw [← same] at unnamed
    cases unnamed
  · have listed : earlier ∈ before := by
      have held := List.mem_map_of_mem (f := clause) (List.mem_of_getLast? last)
      rw [← sames, known] at held
      obtain ⟨_, member, equal⟩ := List.mem_map.mp held
      cases equal
      exact member
    rw [← same, Option.some.injEq] at also
    rw [← also] at behind
    have forward := (List.pairwise_append.mp increasing).2.2 earlier listed own List.mem_cons_self
    omega

theorem Ordered.not_strays (taken left : List Chunk) (stray : Chunk)
    (ordered : Ordered (taken ++ stray :: left)) : ¬ stray.Strays taken.getLast? :=
  ordered.orderly _ taken stray left rfl

theorem ordered_of_sublist (chunks : List Chunk)
    (listed : List.Sublist (chunks.map clause) (Clause.all.map some)) : Ordered chunks := by
  obtain ⟨clauses, below, named⟩ := List.sublist_map_iff.mp listed
  exact ⟨clauses, named, Clause.all_places.sublist below⟩

end Chunk

namespace SelectStatement

theorem strays_behind (clauses : List Clause) (clause : Clause) (taken : List Chunk) (next : Chunk)
    (later : ∀ other ∈ clauses, clause.place < other.place)
    (listed : List.Sublist (taken.map Chunk.clause) (clauses.map some)) (filled : taken ≠ [])
    (named : next.clause = some clause) : next.Strays taken.getLast? := by
  have last := List.getLast?_eq_some_getLast filled
  have held := List.mem_map_of_mem (f := Chunk.clause) (List.getLast_mem filled)
  obtain ⟨other, member, same⟩ := List.mem_map.mp (listed.mem held)
  have behind := later other member
  exact .inr ⟨_, other, clause, last, same.symm, named, by omega⟩

/-- Of the clauses to come a statement takes what is next as long as it can. If what is left begins
with a chunk of one of these clauses, it is out of order behind the chunks taken. -/
theorem takeChunks_split (clauses : List Clause) (chunks : List Chunk) (statement : SelectStatement)
    (places : clauses.Pairwise fun earlier later => earlier.place < later.place) :
    ∃ taken left, chunks = taken ++ left ∧
      takeChunks clauses chunks statement = (taken.foldl take statement, left) ∧
      List.Sublist (taken.map Chunk.clause) (clauses.map some) ∧
      ∀ next ∈ left.head?, ∀ clause ∈ clauses, next.clause = some clause →
        next.Strays taken.getLast? := by
  induction clauses generalizing chunks statement with
  | nil => exact ⟨[], chunks, rfl, rfl, List.Sublist.refl _, by simp⟩
  | cons clause clauses ih =>
    obtain ⟨later, others⟩ := List.pairwise_cons.mp places
    cases chunks with
    | nil => exact ⟨[], [], rfl, rfl, List.nil_sublist _, by simp⟩
    | cons chunk chunks =>
      rw [takeChunks]
      split
      · rename_i own
        obtain ⟨taken, left, split, result, listed, strays⟩ :=
          ih chunks (statement.hydrate clause chunk.keyword chunk.body) others
        refine ⟨chunk :: taken, left, by rw [split]; rfl, ?_, ?_, ?_⟩
        · rw [result, List.foldl_cons, take, own]
        · rw [List.map_cons, List.map_cons, own]
          exact List.cons_sublist_cons.mpr listed
        · intro next first other member named
          cases taken with
          | nil =>
            obtain rfl | among := List.mem_cons.mp member
            · exact .inr ⟨chunk, other, other, rfl, own, named, Nat.le_refl _⟩
            · obtain unnamed | ⟨_, _, _, none, _⟩ := strays next first other among named
              · rw [named] at unnamed
                cases unnamed
              · cases none
          | cons second taken =>
            rw [List.getLast?_cons_cons]
            obtain rfl | among := List.mem_cons.mp member
            · exact strays_behind clauses other _ next later listed (by simp) named
            · exact strays next first other among named
      · rename_i different
        obtain ⟨taken, left, split, result, listed, strays⟩ := ih (chunk :: chunks) statement others
        refine ⟨taken, left, split, result, listed.cons _, ?_⟩
        intro next first other member named
        obtain rfl | among := List.mem_cons.mp member
        · refine strays_behind clauses other taken next later listed ?_ named
          rintro rfl
          rw [List.nil_append] at split
          rw [← split] at first
          cases first
          exact different named
        · exact strays next first other among named

theorem parse_of_takeChunks (sql : String) (chunks : List Chunk) (statement : SelectStatement)
    (left : List Chunk) (tokenized : tokenize sql = .ok chunks)
    (taken : takeChunks Clause.all chunks {} = (statement, left)) :
    parse sql = if left = [] then .ok statement
      else .error (.parse .disorder (left.map Chunk.tag) sql) := by
  rw [parse, tokenized]
  simp only [bind, Except.bind, taken]
  cases left <;> rfl

theorem tokenized_of_parsed (sql : String) (statement : SelectStatement)
    (parsed : parse sql = .ok statement) : ∃ chunks, tokenize sql = .ok chunks := by
  cases tokenized : tokenize sql with
  | ok chunks => exact ⟨chunks, rfl⟩
  | error error =>
    rw [parse, tokenized] at parsed
    cases parsed

/-- What is left of a text that is not parsed begins with the first chunk that is out of order. -/
theorem parse_cut (sql : String) (chunks : List Chunk) (tokenized : tokenize sql = .ok chunks)
    (unparsed : ¬ ∃ statement, parse sql = .ok statement) :
    ∃ taken stray left, Chunk.CutAtStray chunks taken stray left ∧
      parse sql = .error (.parse .disorder ((stray :: left).map Chunk.tag) sql) := by
  obtain ⟨taken, left, split, result, listed, strays⟩ :=
    takeChunks_split Clause.all chunks {} Clause.all_places
  have outcome := parse_of_takeChunks sql chunks _ left tokenized result
  cases left with
  | nil => exact absurd ⟨_, outcome⟩ unparsed
  | cons stray left =>
    refine ⟨taken, stray, left, ⟨split, ?_, ?_⟩, outcome⟩
    · exact (Chunk.ordered_of_sublist taken listed).orderly
    · cases named : stray.clause with
      | none => exact .inl named
      | some clause => exact strays stray rfl clause (Clause.mem_all clause) named

/-- A text is parsed exactly when its chunks are in the order of a statement, and the statement has
no parameters. Otherwise the error has the whole text and names the chunks from the first one that
is out of order. -/
theorem parse_ordered (sql : String) :
    ((∃ statement, parse sql = .ok statement) ↔
      ∃ chunks, tokenize sql = .ok chunks ∧ Chunk.Ordered chunks) ∧
    (∀ chunks, tokenize sql = .ok chunks → (¬ ∃ statement, parse sql = .ok statement) →
      ∃ taken stray left, Chunk.CutAtStray chunks taken stray left ∧
        parse sql = .error (.parse .disorder ((stray :: left).map Chunk.tag) sql)) ∧
    ∀ statement, parse sql = .ok statement → statement.rendering.params = [] := by
  refine ⟨⟨?_, ?_⟩, ?_, ?_⟩
  · intro parsed
    obtain ⟨statement, parsed⟩ := parsed
    obtain ⟨chunks, tokenized⟩ := tokenized_of_parsed sql statement parsed
    have taken := (parse_eq_ok_iff sql chunks statement tokenized).mp parsed
    have listed := ((takeChunks_eq_iff _ _ _ _).mp taken).1
    exact ⟨chunks, tokenized, Chunk.ordered_of_sublist chunks listed⟩
  · intro ordered
    obtain ⟨chunks, tokenized, ordered⟩ := ordered
    by_contra unparsed
    obtain ⟨taken, stray, left, cut, _⟩ := parse_cut sql chunks tokenized unparsed
    rw [cut.split] at ordered
    exact ordered.not_strays taken left stray cut.strays
  · intro chunks tokenized unparsed
    exact parse_cut sql chunks tokenized unparsed
  · intro statement parsed
    obtain ⟨chunks, tokenized⟩ := tokenized_of_parsed sql statement parsed
    have taken := (parse_eq_ok_iff sql chunks statement tokenized).mp parsed
    obtain ⟨_, rfl⟩ := (takeChunks_eq_iff _ _ _ _).mp taken
    exact params_foldl chunks {} rfl

/-- The second FROM is left over, and LIMIT with it. -/
example : (match parse "SELECT a FROM t WHERE b FROM u LIMIT 3" with
    | .error (.parse _ chunks _) => chunks
    | _ => []) = ["FROM", "LIMIT"] := by
  decide +kernel

end SelectStatement

end SqlCompose
