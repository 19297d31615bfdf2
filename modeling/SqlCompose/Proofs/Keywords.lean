import SqlCompose.Keywords
import SqlCompose.Proofs.Bytes
import SqlCompose.Proofs.Reading

/-! The tokenizer finds the keywords of a text, and no others, wherever they stand. -/
namespace SqlCompose

open Text

theorem Clause.begins_iff_at? (clause : Clause) (text : List Char) :
    clause.Begins text ↔ at? text = some clause := by
  rw [at?_eq_some_iff, begins_iff]
  rfl

theorem KeywordAt.nil (boundary : Bool) (rest : List Char) (place : Nat) (clause : Clause) :
    ¬ KeywordAt boundary [] rest place clause := by
  rintro ⟨before, atom, after, split, _⟩
  simp at split

theorem keywordAt_cons (boundary next : Bool) (atom : List Char) (atoms : List (List Char))
    (rest : List Char) (place : Nat) (clause : Clause)
    (counts : next = true ↔ ∃ blank, atom = [blank] ∧ isAsciiBlank blank = true) :
    KeywordAt boundary (atom :: atoms) rest place clause ↔
      place = 0 ∧ boundary = true ∧ clause.Begins ((atom :: atoms).flatten ++ rest) ∨
      ∃ later, place = atom.length + later ∧ KeywordAt next atoms rest later clause := by
  constructor
  · rintro ⟨before, first, after, split, rfl, edge, begins⟩
    cases before with
    | nil =>
      cases split
      left
      rcases edge with ⟨_, start⟩ | ⟨front, blank, ends, _⟩
      · exact ⟨rfl, start, begins⟩
      · simp at ends
    | cons head before =>
      cases split
      right
      refine ⟨before.flatten.length, by simp, before, first, after, rfl, rfl, ?_, begins⟩
      rcases edge with ⟨none, _⟩ | ⟨front, blank, ends, isBlank⟩
      · cases none
      · cases front with
        | nil =>
          cases ends
          exact .inl ⟨rfl, counts.mpr ⟨blank, rfl, isBlank⟩⟩
        | cons _ front =>
          cases ends
          exact .inr ⟨front, blank, rfl, isBlank⟩
  · rintro (⟨rfl, start, begins⟩ | ⟨later, rfl, before, first, after, rfl, rfl, edge, begins⟩)
    · exact ⟨[], atom, atoms, rfl, rfl, .inl ⟨rfl, start⟩, begins⟩
    · refine ⟨atom :: before, first, after, rfl, by simp, .inr ?_, begins⟩
      rcases edge with ⟨rfl, here⟩ | ⟨front, blank, rfl, isBlank⟩
      · obtain ⟨blank, rfl, isBlank⟩ := counts.mp here
        exact ⟨[], blank, rfl, isBlank⟩
      · exact ⟨atom :: front, blank, rfl, isBlank⟩

namespace Lexed

def places : Nat → List (Clause × List Char) → List (Nat × Clause)
  | _, [] => []
  | place, part :: rest => (place, part.1) :: places (place + part.2.length) rest

def keywords (lexed : Lexed) : List (Nat × Clause) := places lexed.lead.length lexed.parts

theorem places_add (more place : Nat) (parts : List (Clause × List Char)) :
    places (more + place) parts =
      (places place parts).map fun found => (more + found.1, found.2) := by
  induction parts generalizing place with
  | nil => rfl
  | cons part rest ih => rw [places, places, List.map_cons, Nat.add_assoc, ih]

theorem keywords_behind (front : List Char) (lexed : Lexed) :
    (lexed.behind front).keywords =
      lexed.keywords.map fun found => (front.length + found.1, found.2) := by
  rw [keywords, behind, List.length_append, places_add]
  rfl

theorem keywords_startingWith (clause : Clause) (lexed : Lexed) :
    (lexed.startingWith clause).keywords = (0, clause) :: lexed.keywords := by
  rw [keywords, startingWith, List.length_nil, places, Nat.zero_add]
  rfl

structure Accounts (boundary : Bool) (text : List Char) (atoms : List (List Char))
    (rest : List Char) (lexed : Lexed) : Prop where
  reading : Reading text atoms rest
  text : lexed.text = atoms.flatten
  unclosed : lexed.unclosed =
    rest.head?.map fun opening => if isQuote opening then .quote else .group
  keywords : Keywords boundary atoms rest lexed.keywords

theorem text_behind (front : List Char) (lexed : Lexed) :
    (lexed.behind front).text = front ++ lexed.text := by
  simp [text, behind]

theorem text_startingWith (clause : Clause) (lexed : Lexed) :
    (lexed.startingWith clause).text = lexed.text := by
  simp [text, startingWith]

theorem keywords_cons (boundary next : Bool) (atom : List Char) (atoms : List (List Char))
    (rest : List Char) (found : List (Nat × Clause)) (filled : atom ≠ [])
    (counts : next = true ↔ ∃ blank, atom = [blank] ∧ isAsciiBlank blank = true)
    (listed : Keywords next atoms rest found) (first : Option Clause)
    (here : first = if boundary then Clause.at? ((atom :: atoms).flatten ++ rest) else none) :
    Keywords boundary (atom :: atoms) rest
      (first.toList.map (fun clause => (0, clause)) ++
        found.map fun later => (atom.length + later.1, later.2)) := by
  have long := List.length_pos_iff.mpr filled
  refine ⟨?_, ?_⟩
  · refine List.pairwise_append.mpr ⟨?_, ?_, ?_⟩
    · cases first <;> simp
    · exact List.pairwise_map.mpr (listed.ordered.imp fun before => Nat.add_lt_add_left before _)
    · intro start among later member
      obtain ⟨clause, _, rfl⟩ := List.mem_map.mp among
      obtain ⟨earlier, _, rfl⟩ := List.mem_map.mp member
      exact Nat.lt_of_lt_of_le long (Nat.le_add_right _ _)
  · intro place clause
    rw [keywordAt_cons boundary next atom atoms rest place clause counts, List.mem_append]
    refine or_congr ?_ ?_
    · rw [clause.begins_iff_at?, here]
      cases boundary <;> simp [and_comm, eq_comm]
    · simp only [List.mem_map, Prod.exists, Prod.mk.injEq]
      constructor
      · rintro ⟨later, other, member, rfl, rfl⟩
        exact ⟨later, rfl, (listed.complete later other).mp member⟩
      · rintro ⟨later, rfl, keyword⟩
        exact ⟨later, clause, (listed.complete later clause).mpr keyword, rfl, rfl⟩

/-- An atom more is accounted for, and the keyword that may begin with it. -/
theorem Accounts.cons (boundary next : Bool) (text atom left : List Char)
    (atoms : List (List Char)) (rest : List Char) (lexed : Lexed)
    (read : atom? text = some (atom, left))
    (counts : next = true ↔ ∃ blank, atom = [blank] ∧ isAsciiBlank blank = true)
    (accounts : Accounts next left atoms rest lexed) :
    Accounts boundary text (atom :: atoms) rest
      (match if boundary then Clause.at? text else none with
      | some clause => (lexed.behind atom).startingWith clause
      | none => lexed.behind atom) := by
  obtain ⟨whole, split⟩ := (atom?_eq_some_iff text atom left).mp read
  have filled : atom ≠ [] := by
    cases whole <;> simp
  have same : (atom :: atoms).flatten ++ rest = text := by
    rw [split, accounts.reading.split, List.flatten_cons, List.append_assoc]
  have listed := keywords_cons boundary next atom atoms rest lexed.keywords filled counts
    accounts.keywords
  rw [same] at listed
  refine ⟨accounts.reading.cons text atom left atoms rest read, ?_, ?_, ?_⟩
  · split <;> simp [text_behind, text_startingWith, accounts.text]
  · split <;> exact accounts.unclosed
  · split
    · rename_i clause found
      rw [keywords_startingWith, keywords_behind]
      exact listed (some clause) found.symm
    · rename_i found
      rw [keywords_behind]
      exact listed none found.symm

theorem accounts_set (boundary : Bool) (char : Char) (part rest left : List Char)
    (lexed : Lexed) (unlettered : char.isAlpha = false) (unblank : isAsciiBlank char = false)
    (read : atom? (char :: rest) = some (char :: part, left))
    (later : ∃ atoms rest, Accounts false left atoms rest lexed) :
    ∃ atoms more, Accounts boundary (char :: rest) atoms more (lexed.behind (char :: part)) := by
  obtain ⟨atoms, more, accounts⟩ := later
  have counts : false = true ↔
      ∃ blank, char :: part = [blank] ∧ isAsciiBlank blank = true := by
    refine iff_of_false (by simp) ?_
    rintro ⟨blank, same, isBlank⟩
    cases same
    rw [unblank] at isBlank
    cases isBlank
  have unkeyed : (if boundary then Clause.at? (char :: rest) else none) = none := by
    rw [Clause.at?_of_unlettered char rest unlettered, ite_self]
  have whole := accounts.cons boundary false _ _ left atoms more lexed read counts
  rw [unkeyed] at whole
  exact ⟨_, more, whole⟩

theorem accounts_plain (boundary : Bool) (char : Char) (rest : List Char)
    (unquoted : isQuote char = false) (ungrouped : char ≠ '(')
    (later : ∃ atoms more, Accounts (isAsciiBlank char) rest atoms more
      (ofText (isAsciiBlank char) rest)) :
    ∃ atoms more, Accounts boundary (char :: rest) atoms more (ofText boundary (char :: rest)) := by
  obtain ⟨atoms, more, accounts⟩ := later
  have read : atom? (char :: rest) = some ([char], rest) := by
    rw [atom?, if_neg (by simp [unquoted]), if_neg ungrouped]
  have whole := accounts.cons boundary (isAsciiBlank char) _ _ rest atoms more _ read (by simp)
  rw [ofText_plain boundary char rest unquoted ungrouped]
  exact ⟨_, more, whole⟩

theorem accounts_stopped (boundary : Bool) (text : List Char) (lexed : Lexed)
    (unread : atom? text = none)
    (stops : lexed = ⟨[], [], text.head?.map fun opening =>
      if isQuote opening then .quote else .group⟩) :
    ∃ atoms rest, Accounts boundary text atoms rest lexed := by
  subst stops
  refine ⟨[], text, .nil text unread, rfl, rfl, .nil, fun place clause => ?_⟩
  exact iff_of_false (by simp [keywords, places]) (KeywordAt.nil boundary text place clause)

theorem accounts_ofText (boundary : Bool) (text : List Char) :
    ∃ atoms rest, Accounts boundary text atoms rest (ofText boundary text) := by
  -- Each step of the reader that does not stop reads one atom.
  induction boundary, text using ofText.induct with
  | case1 boundary =>
    exact accounts_stopped boundary [] _ rfl (by rw [ofText]; rfl)
  | case2 boundary char rest quoted none =>
    refine accounts_stopped boundary (char :: rest) _ ?_ ?_
    · rw [atom?, if_pos quoted, none]
      rfl
    · rw [ofText_unclosed_literal boundary char rest quoted none]
      simp [stopped, quoted]
  | case3 boundary char rest quoted part left read ih =>
    rw [ofText_literal boundary char part left rest quoted read]
    refine accounts_set boundary char part rest left _ ?_ ?_ ?_ ih
    · by_contra alphabetic
      rw [(Clause.plain_of_isAlpha char (by simpa using alphabetic)).1] at quoted
      cases quoted
    · by_contra blank
      rw [(plain_of_isAsciiBlank char (by simpa using blank)).1] at quoted
      cases quoted
    · rw [atom?, if_pos quoted, read]
      rfl
  | case4 boundary rest none unquoted =>
    refine accounts_stopped boundary ('(' :: rest) _ ?_ ?_
    · rw [atom?, if_neg unquoted, if_pos rfl, none]
      rfl
    · rw [ofText_unclosed_group boundary rest none]
      simp [stopped, unquoted]
  | case5 boundary rest part left read unquoted ih =>
    rw [ofText_group boundary part left rest read]
    refine accounts_set boundary '(' part rest left _ (by decide) (by decide) ?_ ih
    rw [atom?, if_neg unquoted, if_pos rfl, read]
    rfl
  | case6 boundary char rest unquoted ungrouped clause found ih =>
    exact accounts_plain boundary char rest (by simpa using unquoted) ungrouped ih
  | case7 boundary char rest unquoted ungrouped found ih =>
    exact accounts_plain boundary char rest (by simpa using unquoted) ungrouped ih

theorem encoded_text (lexed : Lexed) : lexed.encoded.text = bytes lexed.text := by
  rw [text, text, encoded, bytes_append]
  congr 1
  induction lexed.parts with
  | nil => rfl
  | cons part rest ih => rw [List.map_cons, List.flatMap_cons, List.flatMap_cons, ih, bytes_append]

theorem leading_eq (lexed : Lexed) : lexed.leading = Chunk.untagged (String.ofList lexed.lead) := by
  rw [leading, Chunk.untagged, String.toList_ofList]

theorem starts_tagged (lexed : Lexed) :
    Chunk.starts (bytes lexed.lead).length lexed.tagged =
      lexed.encoded.keywords.map fun found => (found.1, some found.2) := by
  rw [keywords, encoded, tagged]
  generalize (bytes lexed.lead).length = place
  induction lexed.parts generalizing place with
  | nil => rfl
  | cons part rest ih =>
    simp only [List.map_cons, Chunk.starts, places, ih, String.toList_ofList]

theorem join_tagged (lexed : Lexed) :
    String.join (lexed.tagged.map Chunk.text) = String.ofList (lexed.parts.flatMap Prod.snd) := by
  rw [tagged, List.map_map]
  induction lexed.parts with
  | nil => rfl
  | cons part rest ih =>
    rw [List.map_cons, String.join_cons, ih, List.flatMap_cons, String.ofList_append]
    rfl

theorem tags_tagged (lexed : Lexed) :
    lexed.tagged.map Chunk.tag = lexed.encoded.keywords.map fun found => found.2.keyword := by
  rw [keywords, encoded, tagged, List.map_map]
  generalize (bytes lexed.lead).length = place
  induction lexed.parts generalizing place with
  | nil => rfl
  | cons part rest ih =>
    rw [List.map_cons, List.map_cons, places, List.map_cons, ← ih]
    rfl

theorem tags_eq (lexed : Lexed) :
    lexed.tags = if lexed.encoded.keywords.isEmpty then []
      else (Chunk.untagged (String.ofList lexed.lead)).map Chunk.tag ++
        lexed.encoded.keywords.map fun found => found.2.keyword := by
  rw [tags, chunks, leading_eq, List.map_append, tags_tagged]
  congr 1
  rw [keywords, encoded]
  cases lexed.parts <;> rfl

theorem keywords_head (lexed : Lexed) :
    ∀ first ∈ lexed.keywords.head?, first.1 = lexed.lead.length := by
  intro first member
  rw [keywords] at member
  cases parts : lexed.parts with
  | nil =>
    rw [parts] at member
    cases member
  | cons part rest =>
    rw [parts] at member
    cases member
    rfl

end Lexed

/-- The bytes of a text can be read in one way. If that leaves nothing, the chunks with clauses
begin at the keywords, each with the clause of its own, and nowhere else. If it leaves a quote or a
parenthesis that is not closed, this is the place of the fault, and the tags are those of the
keywords before it, behind that of the text before the first of them. -/
theorem tokenize_keywords (sql : String) :
    ∃ atoms rest keywords, Reading (bytes sql.toList) atoms rest ∧
      (∀ others left, Reading (bytes sql.toList) others left → others = atoms ∧ left = rest) ∧
      Keywords true atoms rest keywords ∧
      (rest = [] → ∃ lead chunks, tokenize sql = .ok (Chunk.untagged lead ++ chunks) ∧
        sql = lead ++ String.join (chunks.map Chunk.text) ∧
        Chunk.starts (bytes lead.toList).length chunks =
          keywords.map fun found => (found.1, some found.2)) ∧
      ∀ opening more, rest = opening :: more → ∃ lead tail, sql = lead ++ tail ∧
        (∀ first ∈ keywords.head?, first.1 = (bytes lead.toList).length) ∧
        tokenize sql = .error (.parse
          (if isQuote opening then .unterminatedQuote atoms.flatten.length
            else .unbalancedParenthesis atoms.flatten.length)
          (if keywords.isEmpty then [] else (Chunk.untagged lead).map Chunk.tag ++
            keywords.map fun found => found.2.keyword)
          sql) := by
  obtain ⟨atoms, rest, accounts⟩ := Lexed.accounts_ofText true (bytes sql.toList)
  rw [Lexed.ofText_bytes] at accounts
  have text := accounts.text
  rw [Lexed.encoded_text] at text
  have unclosed : (Lexed.ofText true sql.toList).unclosed = _ := accounts.unclosed
  refine ⟨atoms, rest, _, accounts.reading, fun others left again => ?_, accounts.keywords, ?_, ?_⟩
  · exact accounts.reading.unique _ atoms others rest left again
  · rintro rfl
    have closed : (Lexed.ofText true sql.toList).unclosed = none := unclosed
    have whole := Lexed.text_of_whole _ (Lexed.whole_of_unclosed true _ closed) true
    refine ⟨String.ofList (Lexed.ofText true sql.toList).lead,
      (Lexed.ofText true sql.toList).tagged, ?_, ?_, ?_⟩
    · rw [Lexed.tokenize_closed sql _ rfl closed, Lexed.chunks, Lexed.leading_eq]
    · rw [Lexed.join_tagged, ← String.ofList_append]
      exact String.toList_injective (by rw [String.toList_ofList]; exact whole.symm)
    · rw [String.toList_ofList]
      exact Lexed.starts_tagged _
  · rintro opening more rfl
    have stopped : (Lexed.ofText true sql.toList).unclosed =
      some (if isQuote opening then .quote else .group) := unclosed
    obtain ⟨parts, left, own⟩ := Lexed.accounts_ofText true sql.toList
    have split := own.reading.split
    rw [← own.text, Lexed.text, List.append_assoc] at split
    refine ⟨String.ofList (Lexed.ofText true sql.toList).lead,
      String.ofList ((Lexed.ofText true sql.toList).parts.flatMap Prod.snd ++ left), ?_, ?_, ?_⟩
    · rw [← String.ofList_append]
      exact String.toList_injective (by rw [String.toList_ofList]; exact split)
    · rw [String.toList_ofList]
      exact Lexed.keywords_head _
    · simp only [tokenize, stopped, Lexed.tags_eq, ← length_bytes, text]
      cases isQuote opening <;> rfl

end SqlCompose
