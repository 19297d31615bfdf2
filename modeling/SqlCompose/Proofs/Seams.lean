import SqlCompose.History.Parsed
import SqlCompose.Proofs.Phrase
import SqlCompose.Proofs.Rereading

/-! Texts without keywords, put together with the joints of the clauses, make no keyword. -/
namespace SqlCompose.Lexed

open Text

structure Standing (text : List Char) : Prop where
  filled : text ≠ []
  bare : Bare true text
  first : ∀ char ∈ text.head?, isBlank char = false
  last : ∀ char ∈ text.getLast?, isBlank char = false

/-- A joint that makes no keyword with the texts around it. -/
def Neutral (joint : List Char) : Prop :=
  ∀ front back, Bare true front → Bare true back → Bare true (front ++ (joint ++ back))

theorem neutral_comma : Neutral [',', ' '] := by
  intro front back bare also
  have divided (text : List Char) (unkeyed : Clause.at? text = none) :
      Clause.at? (text ++ ',' :: ' ' :: back) = none :=
    Clause.at?_divided text _ ',' (by decide) (by decide) unkeyed
  have unblank : isAsciiBlank ',' = false := by decide
  rw [Bare, List.cons_append, List.singleton_append,
    ofText_seam true front _ ',' (by decide) (by decide) divided bare, unblank,
    ofText_gap false ' ' back (by decide), also]
  simp [behind]

theorem neutral_connective (connective : Connective) : Neutral connective.text.toList := by
  intro front back bare also
  have word (letters : List Char) (alphabetic : letters.all Char.isAlpha = true)
      (unkeyed : Clause.at? (letters ++ ' ' :: back) = none)
      (apart : ∀ char ∈ (letters ++ ' ' :: back).head?, char.toUpper ≠ 'B') :
      Bare true (front ++ ' ' :: (letters ++ ' ' :: back)) := by
    rw [Bare, ofText_blank true front _ ' ' (by decide) apart bare,
      ofText_word letters back (List.all_eq_true.mp alphabetic) unkeyed, also]
    simp [behind]
  cases connective with
  | and => exact word ['A', 'N', 'D'] (by decide) rfl (by simp)
  | or => exact word ['O', 'R'] (by decide) rfl (by simp)

theorem Standing.append (front joint back : List Char) (standing : Standing front)
    (also : Standing back) (neutral : Neutral joint) : Standing (front ++ (joint ++ back)) := by
  refine ⟨?_, neutral front back standing.bare also.bare, ?_, ?_⟩
  · simp [standing.filled]
  · rw [List.head?_append_of_ne_nil _ standing.filled]
    exact standing.first
  · rw [← List.append_assoc, List.getLast?_append_of_ne_nil _ also.filled]
    exact also.last

theorem Standing.quantified (word text : List Char) (standing : Standing text)
    (alphabetic : word.all Char.isAlpha = true)
    (unkeyed : Clause.at? (word ++ ' ' :: text) = none)
    (first : ∀ char ∈ (word ++ ' ' :: text).head?, isBlank char = false) :
    Standing (word ++ ' ' :: text) := by
  refine ⟨by simp, ?_, first, ?_⟩
  · rw [Bare, ofText_word word text (List.all_eq_true.mp alphabetic) unkeyed, standing.bare]
    simp [behind]
  · rw [← List.singleton_append, ← List.append_assoc,
      List.getLast?_append_of_ne_nil _ standing.filled]
    exact standing.last

theorem standing_of_freestanding (text : String) (free : Chunk.Freestanding text) :
    Standing text.toList := by
  have edges := trim_edges text.toList
  have trimmed : trim text.toList = text.toList := by
    have same := congrArg String.toList free.trimmed
    simpa [Text.trimmed] using same
  rw [trimmed] at edges
  refine ⟨?_, ?_, edges.1, edges.2⟩
  · simpa using free.filled
  · obtain ⟨chunk, tokenized, unnamed⟩ := free.untagged
    rw [tokenize] at tokenized
    split at tokenized
    · rename_i closed
      have chunks : (ofText true text.toList).chunks = [chunk] := Except.ok.inj tokenized
      apply bare_of_parts true text.toList (whole_of_unclosed true _ closed)
      by_contra parted
      obtain ⟨part, rest, parts⟩ := List.exists_cons_of_ne_nil parted
      have member : (⟨some part.1, String.ofList part.2⟩ : Chunk) ∈
          (ofText true text.toList).chunks := by
        rw [Lexed.chunks, tagged, parts]
        simp
      rw [chunks, List.mem_singleton] at member
      rw [← member] at unnamed
      cases unnamed
    · cases tokenized

theorem standing_joined (links : List Link) (linked : links ≠ [])
    (texts : ∀ link ∈ links, Standing link.text.toList)
    (joints : ∀ link ∈ links.tail, Neutral link.joint.toList) :
    Standing (Link.joined links).toList := by
  cases links with
  | nil => exact absurd rfl linked
  | cons first rest =>
    -- From the back, where each joint is followed by one text.
    induction rest using List.reverseRecOn with
    | nil => simpa [Link.joined] using texts first List.mem_cons_self
    | append_singleton before last ih =>
      have front := ih (by simp) (fun link member => texts link (by simp at member ⊢; tauto))
        (fun link member => joints link (by simp at member ⊢; tauto))
      have own := texts last (by simp)
      have joined := Link.joined_snoc (first :: before) last (by simp)
      rw [List.cons_append] at joined
      rw [joined, String.toList_append, String.toList_append, List.append_assoc]
      exact front.append _ _ _ own (joints last (by simp))

end SqlCompose.Lexed
