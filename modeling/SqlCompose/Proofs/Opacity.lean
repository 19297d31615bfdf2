import SqlCompose.Proofs.Keywords
import SqlCompose.Proofs.Reparsing

/-! Literals and groups are opaque: whatever stands inside them, a text around them is cut at the
same keywords, or reading it stops at the same place. -/
namespace SqlCompose

namespace Text

theorem Sealed.of_isEnclosed (text : List Char) (enclosed : isEnclosed text = true) :
    Sealed text := by
  cases text with
  | nil => cases enclosed
  | cons char rest =>
    rw [isEnclosed] at enclosed
    split at enclosed
    · rename_i quoted
      have read : literal? char rest = some (rest, []) := by simpa using enclosed
      exact .literal char rest quoted fun more => readUntil_alone _ _ _ _ _ more read
    · obtain ⟨rfl, read⟩ : char = '(' ∧ group? rest = some (rest, []) := by simpa using enclosed
      exact .group rest fun more => readUntil_alone _ _ _ _ _ more read

theorem Sealed.opening (text : List Char) (closed : Sealed text) :
    ∃ first rest, text = first :: rest ∧ first.isAlpha = false ∧ isBlank first = false ∧
      isAsciiBlank first = false := by
  cases closed with
  | literal quote part quoted _ =>
    refine ⟨quote, part, rfl, ?_⟩
    rcases eq_of_isQuote quote quoted with rfl | rfl | rfl <;> decide
  | group part _ => exact ⟨'(', part, rfl, by decide⟩

end Text

open Text

namespace Clause

/-- No keyword ends before a character that is neither a letter nor a blank, and none goes on over
it, whichever it is. -/
theorem begins_divider (keyword text rest : List Char) (divider : Char)
    (lettered : ∀ letter ∈ keyword, letter.isAlpha = true ∨ letter = ' ')
    (unlettered : divider.isAlpha = false) (unblank : isAsciiBlank divider = false) :
    begins keyword (text ++ divider :: rest) = begins keyword (text ++ ['(']) := by
  have unkeyed (letter char : Char) (keyword tail : List Char)
      (kind : letter.isAlpha = true ∨ letter = ' ')
      (unlettered : char.isAlpha = false) (unblank : isAsciiBlank char = false) :
      begins (letter :: keyword) (char :: tail) = false := by
    have apart : letter ≠ char.toUpper := by
      rw [toUpper_of_not_isAlpha char unlettered]
      rintro rfl
      rcases kind with alphabetic | rfl
      · rw [unlettered] at alphabetic
        cases alphabetic
      · cases unblank
    rw [begins, decide_eq_false apart, Bool.false_and]
  induction keyword generalizing text with
  | nil =>
    cases text with
    | nil => exact unblank
    | cons char text => rfl
  | cons letter keyword ih =>
    obtain ⟨kind, others⟩ := List.forall_mem_cons.mp lettered
    cases text with
    | nil =>
      have here := unkeyed letter divider keyword rest kind unlettered unblank
      exact here.trans (unkeyed letter '(' keyword [] kind (by decide) (by decide)).symm
    | cons char text =>
      rw [List.cons_append, List.cons_append, begins, begins, ih text others]

theorem at?_sealed (text enclosed rest : List Char) (closed : Sealed enclosed) :
    at? (text ++ (enclosed ++ rest)) = at? (text ++ ['(']) := by
  obtain ⟨divider, part, rfl, unlettered, unfilled, unblank⟩ := closed.opening
  unfold at?
  congr 1
  funext clause
  exact begins_divider _ text (part ++ rest) divider (keyword_lettered clause) unlettered unblank

end Clause

namespace Lexed

/-- What has been read of a text that goes on: everything but its last part is done with. -/
inductive Opening
  | unkeyed (text : List Char)
  | keyed (lead : List Char) (parts : List (Clause × List Char)) (clause : Clause)
      (text : List Char)

namespace Opening

def extend : Opening → Lexed → Lexed
  | .unkeyed text, lexed => lexed.behind text
  | .keyed lead parts clause text, lexed =>
    ⟨lead, parts ++ (clause, text ++ lexed.lead) :: lexed.parts, lexed.unclosed⟩

def behind (front : List Char) : Opening → Opening
  | .unkeyed text => .unkeyed (front ++ text)
  | .keyed lead parts clause text => .keyed (front ++ lead) parts clause text

def startingWith (clause : Clause) : Opening → Opening
  | .unkeyed text => .keyed [] [] clause text
  | .keyed lead parts last text => .keyed [] ((clause, lead) :: parts) last text

def text : Opening → List Char
  | .unkeyed text => text
  | .keyed lead parts _ text => lead ++ parts.flatMap Prod.snd ++ text

def before : Opening → List Chunk
  | .unkeyed _ => []
  | .keyed lead parts _ _ => Chunk.untagged (String.ofList lead) ++ (Lexed.mk lead parts none).tagged

def clause : Opening → Option Clause
  | .unkeyed _ => none
  | .keyed _ _ clause _ => some clause

def last : Opening → List Char
  | .unkeyed text => text
  | .keyed _ _ _ text => text

theorem extend_behind (front : List Char) (opening : Opening) (lexed : Lexed) :
    (opening.behind front).extend lexed = (opening.extend lexed).behind front := by
  cases opening <;> simp [extend, behind, Lexed.behind]

theorem extend_startingWith (clause : Clause) (opening : Opening) (lexed : Lexed) :
    (opening.startingWith clause).extend lexed = (opening.extend lexed).startingWith clause := by
  cases opening <;> simp [extend, startingWith, Lexed.startingWith, Lexed.behind]

theorem text_behind (front : List Char) (opening : Opening) :
    (opening.behind front).text = front ++ opening.text := by
  cases opening <;> simp [text, behind]

theorem text_startingWith (clause : Clause) (opening : Opening) :
    (opening.startingWith clause).text = opening.text := by
  cases opening <;> simp [text, startingWith]

theorem unclosed_extend (opening : Opening) (lexed : Lexed) :
    (opening.extend lexed).unclosed = lexed.unclosed := by
  cases opening <;> rfl

theorem text_extend (opening : Opening) (lexed : Lexed) :
    (opening.extend lexed).text = opening.text ++ lexed.text := by
  cases opening <;> simp [text, extend, Lexed.text, Lexed.behind]

theorem chunks_extend (opening : Opening) (lexed : Lexed) (enclosed : List Char)
    (closed : Sealed enclosed) :
    (opening.extend (lexed.behind enclosed)).chunks =
      opening.before ++
        ⟨opening.clause, String.ofList (opening.last ++ (enclosed ++ lexed.lead))⟩ ::
          lexed.tagged := by
  cases opening with
  | unkeyed text =>
    obtain ⟨first, rest, rfl, _, filled, _⟩ := closed.opening
    have unblank : trim (text ++ (first :: rest ++ lexed.lead)) ≠ [] :=
      trim_ne_nil _ first (by simp) filled
    rw [chunks, leading, extend, Lexed.behind, Lexed.behind, if_neg (by simpa using unblank)]
    rfl
  | keyed lead parts clause text =>
    simp [extend, before, Opening.clause, last, chunks, leading_eq, tagged, Lexed.behind]

theorem tags_extend (opening : Opening) (lexed : Lexed) (first second : List Char)
    (closed : Sealed first) (also : Sealed second) :
    (opening.extend (lexed.behind second)).tags = (opening.extend (lexed.behind first)).tags := by
  have empty : (opening.extend (lexed.behind second)).parts.isEmpty =
      (opening.extend (lexed.behind first)).parts.isEmpty := by
    cases opening with
    | unkeyed text => rfl
    | keyed lead parts clause text => cases parts <;> rfl
  unfold tags
  rw [empty, opening.chunks_extend lexed first closed, opening.chunks_extend lexed second also,
    List.map_append, List.map_append]
  rfl

theorem text_eq (opening : Opening) :
    ∃ blank, trimmed blank = "" ∧ String.ofList opening.text =
      blank ++ String.join (opening.before.map Chunk.text) ++ String.ofList opening.last := by
  cases opening with
  | unkeyed text => exact ⟨"", rfl, by simp [Opening.text, before, last]⟩
  | keyed lead parts clause text =>
    have joined := join_tagged ⟨lead, parts, none⟩
    by_cases blank : trim lead = []
    · refine ⟨String.ofList lead, by simp [trimmed, blank], ?_⟩
      simp [Opening.text, before, last, Chunk.untagged, blank, joined, String.ofList_append,
        String.append_assoc]
    · refine ⟨"", rfl, ?_⟩
      simp [Opening.text, before, last, Chunk.untagged, blank, joined, String.ofList_append,
        String.append_assoc]

end Opening

/-- A closed text that goes on with a literal or group is read without looking into that. -/
theorem exists_opening (boundary : Bool) (text : List Char) (whole : Whole text) :
    ∃ opening : Opening, opening.text = text ∧ ∀ enclosed rest, Sealed enclosed →
      ofText boundary (text ++ (enclosed ++ rest)) =
        opening.extend ((ofText false rest).behind enclosed) := by
  induction whole generalizing boundary with
  | nil =>
    refine ⟨.unkeyed [], rfl, fun enclosed rest closed => ?_⟩
    exact ofText_set boundary enclosed rest closed
  | set unit text closed _ ih =>
    obtain ⟨opening, same, run⟩ := ih false
    refine ⟨opening.behind unit, by rw [opening.text_behind, same], fun enclosed rest inner => ?_⟩
    rw [List.append_assoc, ofText_set boundary unit _ closed, run enclosed rest inner,
      opening.extend_behind]
  | plain char text unquoted ungrouped _ ih =>
    obtain ⟨opening, same, run⟩ := ih (isAsciiBlank char)
    have own : (opening.behind [char]).text = char :: text := by
      rw [opening.text_behind, same, List.singleton_append]
    -- Whether a keyword begins here is told before the literal or group is reached.
    have told (enclosed rest : List Char) (closed : Sealed enclosed) :=
      Clause.at?_sealed (char :: text) enclosed rest closed
    cases found : if boundary then Clause.at? (char :: text ++ ['(']) else none with
    | none =>
      refine ⟨opening.behind [char], own, fun enclosed rest closed => ?_⟩
      have read := ofText_plain boundary char (text ++ (enclosed ++ rest)) unquoted ungrouped
      rw [← List.cons_append, told enclosed rest closed, found, run enclosed rest closed] at read
      rw [read, opening.extend_behind]
    | some clause =>
      refine ⟨(opening.behind [char]).startingWith clause,
        (Opening.text_startingWith ..).trans own, fun enclosed rest closed => ?_⟩
      have read := ofText_plain boundary char (text ++ (enclosed ++ rest)) unquoted ungrouped
      rw [← List.cons_append, told enclosed rest closed, found, run enclosed rest closed] at read
      rw [read, Opening.extend_startingWith, opening.extend_behind]

end Lexed

open Lexed

/-- What stands inside a literal or group does not change how the text around it is cut up. Behind a
text that can be cut up and before any text, one may stand in place of another: either there are the
same chunks, and the one that holds it is the same around it, or the same is left open at the same
place behind it. -/
theorem tokenize_enclosed (front back first second : String) (chunks : List Chunk)
    (success : tokenize front = .ok chunks) (enclosed : isEnclosed first.toList = true)
    (also : isEnclosed second.toList = true) :
    (∃ before clause head tail after,
      tokenize (front ++ first ++ back) = .ok (before ++ ⟨clause, head ++ first ++ tail⟩ :: after) ∧
      tokenize (front ++ second ++ back) =
        .ok (before ++ ⟨clause, head ++ second ++ tail⟩ :: after) ∧
      (∃ blank, trimmed blank = "" ∧
        front = blank ++ String.join (before.map Chunk.text) ++ head) ∧
      back = tail ++ String.join (after.map Chunk.text)) ∨
    ∃ unclosed place tags,
      tokenize (front ++ first ++ back) =
        .error (.parse (Unclosed.fault unclosed (byteSize (front ++ first).toList + place)) tags
          (front ++ first ++ back)) ∧
      tokenize (front ++ second ++ back) =
        .error (.parse (Unclosed.fault unclosed (byteSize (front ++ second).toList + place)) tags
          (front ++ second ++ back)) := by
  have whole := whole_of_unclosed true _ (unclosed_of_tokenize front chunks success)
  obtain ⟨opening, same, run⟩ := exists_opening true _ whole
  let later := ofText false back.toList
  have read (unit : String) (enclosed : isEnclosed unit.toList = true) :
      ofText true (front ++ unit ++ back).toList =
        opening.extend (later.behind unit.toList) := by
    rw [String.toList_append, String.toList_append, List.append_assoc]
    exact run _ _ (.of_isEnclosed _ enclosed)
  cases left : later.unclosed with
  | none =>
    have cut (unit : String) (enclosed : isEnclosed unit.toList = true) :
        tokenize (front ++ unit ++ back) = .ok (opening.before ++ ⟨opening.clause,
          String.ofList opening.last ++ unit ++ String.ofList later.lead⟩ :: later.tagged) := by
      have closed := (opening.unclosed_extend (later.behind unit.toList)).trans left
      rw [tokenize_closed _ _ (read unit enclosed) closed,
        opening.chunks_extend later unit.toList (.of_isEnclosed _ enclosed),
        String.ofList_append, String.ofList_append, String.ofList_toList, String.append_assoc]
    have before := opening.text_eq
    rw [same, String.ofList_toList] at before
    have behind : later.text = back.toList :=
      text_of_whole _ (whole_of_unclosed false _ left) false
    refine .inl ⟨opening.before, opening.clause, String.ofList opening.last,
      String.ofList later.lead, later.tagged, cut first enclosed, cut second also, before, ?_⟩
    rw [join_tagged, ← String.ofList_append]
    exact String.toList_injective (by rw [String.toList_ofList]; exact behind.symm)
  | some unclosed =>
    have stopped (unit : String) (enclosed : isEnclosed unit.toList = true) :
        tokenize (front ++ unit ++ back) =
          .error (.parse (unclosed.fault (byteSize (front ++ unit).toList + byteSize later.text))
            (opening.extend (later.behind unit.toList)).tags (front ++ unit ++ back)) := by
      have opened := (opening.unclosed_extend (later.behind unit.toList)).trans left
      rw [tokenize_stopped _ _ unclosed (read unit enclosed) opened, opening.text_extend, same,
        text_behind, ← List.append_assoc, byteSize_append, String.toList_append]
    have tags := opening.tags_extend later first.toList second.toList
      (.of_isEnclosed _ enclosed) (.of_isEnclosed _ also)
    refine .inr ⟨unclosed, byteSize later.text, _, stopped first enclosed, ?_⟩
    rw [← tags]
    exact stopped second also

/-- Keywords, parentheses and quotes in a literal or a group do not count. -/
theorem tokenize_enclosed_keywords :
    tokenize ("SELECT a FROM t WHERE" ++ "'it\\' FROM ('" ++ " = b ORDER BY c") =
      .ok [⟨some .select, "SELECT a "⟩, ⟨some .source, "FROM t WHERE'it\\' FROM (' = b "⟩,
        ⟨some .orderBy, "ORDER BY c"⟩] ∧
    ∃ chunks,
      tokenize ("SELECT a FROM t WHERE" ++ "(') LIMIT \"' WHERE \"(\")" ++ " = b ORDER BY c") =
        .ok chunks ∧
      chunks.map Chunk.clause = [some .select, some .source, some .orderBy] := by
  have success : tokenize "SELECT a FROM t WHERE" = .ok [⟨some .select, "SELECT a "⟩,
      ⟨some .source, "FROM t "⟩, ⟨some .condition, "WHERE"⟩] :=
    tokenize_of_shown _ _ (by decide +kernel)
  have read : tokenize ("SELECT a FROM t WHERE" ++ "'it\\' FROM ('" ++ " = b ORDER BY c") =
      .ok [⟨some .select, "SELECT a "⟩, ⟨some .source, "FROM t WHERE'it\\' FROM (' = b "⟩,
        ⟨some .orderBy, "ORDER BY c"⟩] :=
    tokenize_of_shown _ _ (by decide +kernel)
  refine ⟨read, ?_⟩
  obtain ⟨before, clause, head, tail, after, own, other, _⟩ | ⟨_, _, _, failed, _⟩ :=
    tokenize_enclosed "SELECT a FROM t WHERE" " = b ORDER BY c" "'it\\' FROM ('"
      "(') LIMIT \"' WHERE \"(\")" _ success (by decide) (by decide)
  · have clauses := congrArg (List.map Chunk.clause) (Except.ok.inj (own.symm.trans read))
    refine ⟨_, other, ?_⟩
    rw [List.map_append, List.map_cons] at clauses ⊢
    exact clauses
  · rw [read] at failed
    cases failed

end SqlCompose
