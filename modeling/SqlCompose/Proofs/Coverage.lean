import SqlCompose.Proofs.ChunkRereading

/-! The chunks of a text hold all of it but blanks before the first keyword, and keywords and bodies
hold all of the chunks but blanks. -/
namespace SqlCompose

namespace Text

theorem trim_tail (text : List Char) (blank : ∀ char ∈ text.head?, isBlank char = true) :
    trim text.tail = trim text := by
  cases text with
  | nil => rfl
  | cons first rest =>
    rw [List.tail_cons, trim, trim, trimStart, trimStart,
      List.dropWhile_cons_of_pos (blank first rfl)]

theorem exists_filled (text : List Char) (nonempty : trim text ≠ []) :
    ∃ char ∈ text, isBlank char = false := by
  obtain ⟨front, back, split, _, _⟩ := exists_trim text
  have covered : ∀ char ∈ trim text, char ∈ text := by
    intro char inside
    rw [split]
    simp [inside]
  have first := (trim_edges text).1 _ (List.head?_eq_some_head nonempty)
  exact ⟨_, covered _ (List.head_mem nonempty), first⟩

end Text

open Text

namespace Chunk

theorem divides (clause : Clause) (text : List Char) (found : Clause.at? text = some clause) :
    ∃ behind, Divides ⟨some clause, String.ofList text⟩ clause behind := by
  rw [Clause.at?_eq_some_iff, Clause.begins_iff] at found
  obtain ⟨spelled, rest, split, upper, bounded⟩ := found
  have length := clause.length_spelled spelled upper
  have keyword : Chunk.keyword ⟨some clause, String.ofList text⟩ = String.ofList spelled := by
    simp only [Chunk.keyword, String.toList_ofList, split, length, List.take_left]
  refine ⟨String.ofList rest, ?_, ?_, ?_, ?_⟩
  · rw [keyword, ← String.ofList_append, split]
  · rw [keyword, String.toList_ofList, upper]
  · rw [String.toList_ofList]
    exact bounded
  · have blank : ∀ char ∈ rest.head?, isBlank char = true := fun char first =>
      isBlank_of_isAsciiBlank char (bounded char first)
    simp only [Chunk.body, String.toList_ofList, split, length, List.drop_length_add_append,
      List.drop_one, trim_tail rest blank, trimmed]

theorem Divides.filled {chunk : Chunk} {clause : Clause} {behind : String}
    (divides : chunk.Divides clause behind) :
    filled (chunk.keyword.toList ++ chunk.body.toList) = filled chunk.text.toList := by
  have text : chunk.text.toList = chunk.keyword.toList ++ behind.toList := by
    rw [← String.toList_append, ← divides.text]
  have body : chunk.body.toList = trim behind.toList := by
    rw [divides.body, trimmed, String.toList_ofList]
  rw [text, body, filled_append, filled_append, filled_trim]

theorem filled_untagged (text : String) :
    filled ((Chunk.mk none text).keyword.toList ++ (Chunk.mk none text).body.toList) =
      filled text.toList := by
  have body : (Chunk.mk none text).body.toList = trim text.toList := by
    rw [Chunk.body, trimmed, String.toList_ofList]
  rw [body, ← filled_trim text.toList]
  rfl

end Chunk

namespace Lexed

theorem flatMap_tagged (lexed : Lexed) :
    lexed.tagged.flatMap (fun chunk => chunk.text.toList) = lexed.parts.flatMap Prod.snd := by
  rw [tagged, List.flatMap_map]
  simp only [String.toList_ofList]

theorem named_of_tagged (lexed : Lexed) (chunk : Chunk) (member : chunk ∈ lexed.tagged) :
    chunk.clause ≠ none := by
  obtain ⟨part, _, rfl⟩ := List.mem_map.mp member
  simp

theorem leading_cases (lexed : Lexed) :
    lexed.leading = [] ∧ (∀ char ∈ lexed.lead, isBlank char = true) ∨
      lexed.leading = [⟨none, String.ofList lexed.lead⟩] ∧
        ∃ char ∈ lexed.lead, isBlank char = false := by
  by_cases empty : trim lexed.lead = []
  · exact .inl ⟨by rw [leading, if_pos (List.isEmpty_iff.mpr empty)], blank_of_trim _ empty⟩
  · refine .inr ⟨?_, exists_filled _ empty⟩
    rw [leading, if_neg (by simpa using empty)]

/-- Only the first chunk can be without a clause, and it is not blank. -/
theorem first_of_unnamed (lexed : Lexed) (front back : List Chunk) (chunk : Chunk)
    (split : lexed.chunks = front ++ chunk :: back) (unnamed : chunk.clause = none) :
    front = [] ∧ ∃ char ∈ chunk.text.toList, isBlank char = false := by
  rw [chunks] at split
  obtain ⟨unled, _⟩ | ⟨led, filled⟩ := lexed.leading_cases
  · rw [unled, List.nil_append] at split
    exact absurd unnamed (lexed.named_of_tagged chunk (by simp [split]))
  · rw [led] at split
    cases front with
    | nil =>
      obtain ⟨rfl, _⟩ := List.cons.inj split
      exact ⟨rfl, by rwa [String.toList_ofList]⟩
    | cons first front =>
      have tagged : lexed.tagged = front ++ chunk :: back := (List.cons.inj split).2
      exact absurd unnamed (lexed.named_of_tagged chunk (by simp [tagged]))

end Lexed

/-- A text is blanks and then its chunks. Only the first chunk can be without a clause, and then it
is not blank; every other one is divided into keyword and body. So nothing but blanks is missing
from the keywords and bodies. -/
theorem tokenize_lossless (sql : String) (chunks : List Chunk) (read : tokenize sql = .ok chunks) :
    (∃ blanks, (∀ char ∈ blanks, isBlank char = true) ∧
      sql.toList = blanks ++ chunks.flatMap fun chunk => chunk.text.toList) ∧
    (∀ front chunk back, chunks = front ++ chunk :: back → chunk.clause = none →
      front = [] ∧ ∃ char ∈ chunk.text.toList, isBlank char = false) ∧
    (∀ chunk ∈ chunks, ∀ clause, chunk.clause = some clause →
      ∃ behind, chunk.Divides clause behind) ∧
    filled sql.toList = chunks.flatMap fun chunk =>
      filled (chunk.keyword.toList ++ chunk.body.toList) := by
  have closed := Lexed.unclosed_of_tokenize sql chunks read
  cases read.symm.trans (Lexed.tokenize_closed sql _ rfl closed)
  have whole := Lexed.text_of_whole _ (Lexed.whole_of_unclosed true _ closed) true
  have divides (chunk : Chunk) (member : chunk ∈ (Lexed.ofText true sql.toList).chunks)
      (clause : Clause) (named : chunk.clause = some clause) :
      ∃ behind, chunk.Divides clause behind := by
    obtain ⟨part, rfl, found, _⟩ :=
      Lexed.part_of_tokenize sql _ read chunk member (by simp [named])
    cases named
    exact Chunk.divides _ _ found
  have covered : ∃ blanks, (∀ char ∈ blanks, isBlank char = true) ∧
      sql.toList = blanks ++
        (Lexed.ofText true sql.toList).chunks.flatMap fun chunk => chunk.text.toList := by
    rw [Lexed.text] at whole
    rw [Lexed.chunks, List.flatMap_append, Lexed.flatMap_tagged]
    obtain ⟨unled, blank⟩ | ⟨led, _⟩ := Lexed.leading_cases (Lexed.ofText true sql.toList)
    · refine ⟨_, blank, ?_⟩
      rw [unled, List.flatMap_nil, List.nil_append, whole]
    · refine ⟨[], by simp, ?_⟩
      rw [led, List.flatMap_singleton, String.toList_ofList, List.nil_append, whole]
  refine ⟨covered, ?_, divides, ?_⟩
  · intro front chunk back split unnamed
    exact Lexed.first_of_unnamed _ front back chunk split unnamed
  · obtain ⟨blanks, blank, split⟩ := covered
    conv_lhs => rw [split]
    rw [filled_append, filled_of_blank blanks blank, List.nil_append, filled,
      List.filter_flatMap]
    refine List.flatMap_congr fun chunk member => ?_
    cases named : chunk.clause with
    | none =>
      obtain ⟨_, text⟩ := chunk
      cases named
      exact (Chunk.filled_untagged text).symm
    | some clause =>
      obtain ⟨behind, divided⟩ := divides chunk member clause named
      exact divided.filled.symm

/-- Text before the first keyword is a chunk; a keyword may end the text. -/
theorem tokenize_lossless_leading_text :
    tokenize "\u00a0 with '(' sElect\x0c a\u00a0\nGroup By" = .ok
      [⟨none, "\u00a0 with '(' "⟩, ⟨some .select, "sElect\x0c a\u00a0\n"⟩,
       ⟨some .groupBy, "Group By"⟩] ∧
    (∃ behind, Chunk.Divides ⟨some .groupBy, "Group By"⟩ .groupBy behind) ∧
    filled "\u00a0 with '(' sElect\x0c a\u00a0\nGroup By".toList =
      "with'('sElectaGroupBy".toList := by
  have read : tokenize "\u00a0 with '(' sElect\x0c a\u00a0\nGroup By" = .ok
      [⟨none, "\u00a0 with '(' "⟩, ⟨some .select, "sElect\x0c a\u00a0\n"⟩,
       ⟨some .groupBy, "Group By"⟩] :=
    tokenize_of_shown _ _ (by decide +kernel)
  obtain ⟨_, _, divides, kept⟩ := tokenize_lossless _ _ read
  refine ⟨read, divides _ (by simp) _ rfl, kept.trans ?_⟩
  decide +kernel

end SqlCompose
