import SqlCompose.Proofs.Bytes
import SqlCompose.Proofs.Tokens

/-! Statements of a script are what is cut from the tokens of its bytes. A script is read by bytes
as it is read by characters: the bytes of a character outside ASCII are tokens of their own. -/
namespace SqlCompose

namespace Text

theorem bytes_narrow_cons (char : Char) (rest : List Char) (narrow : isWide char = false) :
    bytes (char :: rest) = char :: bytes rest := by
  rw [bytes_cons, bytes_narrow char narrow, List.singleton_append]

theorem head?_bytes_iff (char : Char) (narrow : isWide char = false) (text : List Char) :
    (bytes text).head? = some char ↔ text.head? = some char := by
  cases text with
  | nil => rfl
  | cons first rest =>
    cases wide : isWide first with
    | true =>
      obtain ⟨filled, each⟩ := bytes_wide first wide
      obtain ⟨byte, more, split⟩ := List.exists_cons_of_ne_nil filled
      have high := each byte (by simp [split])
      rw [bytes_cons, split, List.cons_append, List.head?_cons, List.head?_cons]
      refine iff_of_false ?_ ?_
      · intro same
        rw [Option.some.inj same, narrow] at high
        cases high
      · intro same
        rw [Option.some.inj same, narrow] at wide
        cases wide
    | false => rw [bytes_narrow_cons first rest wide, List.head?_cons, List.head?_cons]

theorem mem_bytes_iff (char : Char) (narrow : isWide char = false) (text : List Char) :
    char ∈ bytes text ↔ char ∈ text := by
  induction text with
  | nil => rfl
  | cons first rest ih =>
    cases wide : isWide first with
    | true =>
      have outside (other : Char) (high : isWide other = true) : char ≠ other := by
        rintro rfl
        rw [narrow] at high
        cases high
      obtain ⟨_, each⟩ := bytes_wide first wide
      have absent : char ∉ bytes [first] := fun member => outside char (each char member) rfl
      rw [bytes_cons, List.mem_append, List.mem_cons, ih]
      simp [absent, outside first wide]
    | false => rw [bytes_narrow_cons first rest wide, List.mem_cons, List.mem_cons, ih]

theorem literalEnd_bytes (quote : Char) (part : List Char) (quoted : isQuote quote = true)
    (ends : LiteralEnd quote part) : LiteralEnd quote (bytes part) := by
  have read := (literal?_eq_some_iff quote quoted part part []).mpr ⟨ends, by simp⟩
  have again := literal?_bytes quote quoted part
  rw [read] at again
  exact ((literal?_eq_some_iff quote quoted _ _ _).mp again).1

end Text

namespace Script

open Text

theorem afterComment?_bytes (text : List Char) :
    afterComment? (bytes text) = (afterComment? text).map bytes := by
  have skips (more rest : List Char) (wide : ∀ byte ∈ more, isWide byte = true) :
      afterComment? (more ++ rest) = afterComment? rest := by
    induction more with
    | nil => rfl
    | cons byte more ih =>
      rw [List.cons_append, afterComment?_cons]
      · exact ih fun other member => wide other (List.mem_cons_of_mem _ member)
      · rintro ⟨rfl, _⟩
        exact absurd (wide _ List.mem_cons_self) (by decide)
  induction text with
  | nil => rfl
  | cons char rest ih =>
    cases wide : isWide char with
    | true =>
      rw [bytes_cons, skips _ _ (bytes_wide char wide).2, ih, afterComment?_cons]
      rintro ⟨rfl, _⟩
      exact absurd wide (by decide)
    | false =>
      rw [bytes_narrow_cons char rest wide]
      by_cases ended : char = '*' ∧ rest.head? = some '/'
      · obtain ⟨rfl, next⟩ := ended
        obtain ⟨rest, rfl⟩ := List.head?_eq_some_iff.mp next
        rw [bytes_narrow_cons '/' rest (by decide), afterComment?, afterComment?]
        rfl
      · rw [afterComment?_cons char rest ended, ← ih, afterComment?_cons]
        rwa [head?_bytes_iff '/' (by decide)]

def Token.encoded : Token → List Token
  | .literal quote part => [.literal quote (bytes part)]
  | .lineComment part => [.lineComment (bytes part)]
  | .blockComment part => [.blockComment (bytes part)]
  | .char value => (bytes [value]).map .char

theorem mark_bytes_iff (first second char : Char) (rest : List Char)
    (narrow : isWide second = false) :
    [first, second] <+: char :: bytes rest ↔ [first, second] <+: char :: rest := by
  rw [mark_prefix_iff, mark_prefix_iff, head?_bytes_iff second narrow]

theorem mark_infix_bytes (text : List Char) (clean : ¬ ['*', '/'] <:+: text) :
    ¬ ['*', '/'] <:+: bytes text := by
  rw [← afterComment?_eq_none_iff] at clean ⊢
  rw [afterComment?_bytes, clean]
  rfl

theorem Unclosed.bytes (fault : Nat → ParseFault) (text : List Char)
    (unclosed : Unclosed fault text) : Unclosed fault (Text.bytes text) := by
  cases unclosed with
  | literal quote rest quoted unended =>
    rw [bytes_narrow_cons quote rest (isWide_of_isQuote quote quoted)]
    refine .literal quote _ quoted fun part left ends split => ?_
    have read := (literal?_eq_some_iff quote quoted _ part left).mpr ⟨ends, split⟩
    rw [literal?_bytes quote quoted] at read
    obtain ⟨⟨inner, behind⟩, own, _⟩ := Option.map_eq_some_iff.mp read
    obtain ⟨closed, same⟩ := (literal?_eq_some_iff quote quoted rest inner behind).mp own
    exact unended inner behind closed same
  | comment rest unended =>
    rw [bytes_narrow_cons '/' _ (by decide), bytes_narrow_cons '*' _ (by decide)]
    exact .comment _ (mark_infix_bytes rest unended)

namespace Reading

theorem chars (more after : List Char) (tokens : List Token) (rest : List Char)
    (wide : ∀ byte ∈ more, isWide byte = true) (reading : Reading after tokens rest) :
    Reading (more ++ after) (more.map .char ++ tokens) rest := by
  induction more with
  | nil => exact reading
  | cons byte more ih =>
    have high := wide byte List.mem_cons_self
    have stands : (Token.char byte).Stands (more ++ after) := by
      refine ⟨(plain_of_isWide byte high).1, ?_, ?_⟩
      · rw [mark_prefix_iff]
        rintro ⟨rfl, _⟩
        exact absurd high (by decide)
      · rw [mark_prefix_iff]
        rintro ⟨rfl, _⟩
        exact absurd high (by decide)
    exact .step (.char byte) _ _ _ stands
      (ih fun other member => wide other (List.mem_cons_of_mem _ member))

/-- The bytes of what is read are read in the same way. -/
theorem encoded (text : List Char) (tokens : List Token) (rest : List Char)
    (reading : Reading text tokens rest) (ends : rest = [] ∨ ∃ fault, Unclosed fault rest) :
    Reading (bytes text) (tokens.flatMap Token.encoded) (bytes rest) := by
  induction reading with
  | stuck rest unread =>
    have unreadable : token? (bytes rest) = none := by
      rw [token?_eq_none_iff]
      rcases ends with rfl | ⟨fault, unclosed⟩
      · exact .inl rfl
      · exact .inr ⟨fault, unclosed.bytes⟩
    refine .stuck (bytes rest) fun token after stands split => ?_
    rw [split, token?_complete token after stands] at unreadable
    cases unreadable
  | step token after tokens rest stands _ ih =>
    have later := ih ends
    rw [bytes_append, List.flatMap_cons]
    cases token with
    | literal quote part =>
      obtain ⟨quoted, closed⟩ := stands
      rw [Token.text, bytes_narrow_cons quote part (isWide_of_isQuote quote quoted)]
      exact .step (.literal quote (bytes part)) _ _ _
        ⟨quoted, literalEnd_bytes quote part quoted closed⟩ later
    | lineComment part =>
      obtain ⟨clean, behind⟩ := stands
      rw [Token.text, bytes_narrow_cons '-' _ (by decide), bytes_narrow_cons '-' _ (by decide)]
      refine .step (.lineComment (bytes part)) _ _ _ ⟨?_, fun next first => ?_⟩ later
      · rwa [mem_bytes_iff '\n' (by decide)]
      · cases after with
        | nil => cases first
        | cons newline after =>
          have same := behind newline rfl
          subst same
          rw [bytes_narrow_cons '\n' after (by decide)] at first
          exact behind next first
    | blockComment part =>
      have inner : bytes (part ++ ['*']) = bytes part ++ ['*'] := by
        rw [bytes_append, bytes_narrow '*' (by decide)]
      have outer : bytes (part ++ ['*', '/']) = bytes part ++ ['*', '/'] := by
        rw [bytes_append, bytes_narrow_cons '*' _ (by decide), bytes_narrow '/' (by decide)]
      have clean := mark_infix_bytes _ stands
      rw [inner] at clean
      rw [Token.text, bytes_narrow_cons '/' _ (by decide), bytes_narrow_cons '*' _ (by decide),
        outer]
      exact .step (.blockComment (bytes part)) _ _ _ clean later
    | char value =>
      cases wide : isWide value with
      | true => exact chars _ _ _ _ (bytes_wide value wide).2 later
      | false =>
        obtain ⟨unquoted, unlined, unblocked⟩ := stands
        rw [Token.encoded, Token.text, bytes_narrow value wide]
        refine .step (.char value) _ _ _ ⟨unquoted, ?_, ?_⟩ later
        · rwa [mark_bytes_iff '-' '-' value after (by decide)]
        · rwa [mark_bytes_iff '/' '*' value after (by decide)]

end Reading

theorem cut_chars (more : List Char) (tokens : List Token) (uncut : ';' ∉ more) :
    cut (more.map .char ++ tokens) = (cut tokens).modifyHead (more ++ ·) := by
  induction more with
  | nil => cases found : cut tokens <;> simp [found]
  | cons char more ih =>
    rw [List.mem_cons, not_or] at uncut
    have other : Token.char char ≠ .char ';' := by simpa using Ne.symm uncut.1
    rw [List.map_cons, List.cons_append, cut_cons _ _ other, ih uncut.2]
    cases cut tokens <;> rfl

theorem cut_token (token : Token) (left : List Char) (tokens : List Token)
    (stands : token.Stands left) (other : token ≠ .char ';') :
    cut (token.encoded ++ tokens) = (cut tokens).modifyHead (bytes token.kept ++ ·) := by
  cases token with
  | literal quote part =>
    have narrow := isWide_of_isQuote quote stands.1
    rw [Token.encoded, List.singleton_append, cut_cons _ _ (by simp), Token.kept, Token.kept,
      Token.text, Token.text, bytes_narrow_cons quote part narrow]
    all_goals simp
  | lineComment part =>
    rw [Token.encoded, List.singleton_append, cut_cons _ _ (by simp)]
    rfl
  | blockComment part =>
    rw [Token.encoded, List.singleton_append, cut_cons _ _ (by simp)]
    rfl
  | char value =>
    refine cut_chars (bytes [value]) tokens fun member => ?_
    rw [mem_bytes_iff ';' (by decide), List.mem_singleton] at member
    exact other (congrArg Token.char member.symm)

theorem cut_encoded (text : List Char) (tokens : List Token) (rest : List Char)
    (reading : Reading text tokens rest) :
    cut (tokens.flatMap Token.encoded) = (cut tokens).map bytes := by
  induction reading with
  | stuck rest _ => rfl
  | step token after tokens rest stands _ ih =>
    rw [List.flatMap_cons]
    by_cases semicolon : token = .char ';'
    · subst semicolon
      have own : Token.encoded (.char ';') = [.char ';'] := rfl
      rw [own, List.singleton_append, cut_semicolon, cut_semicolon, ih]
      rfl
    · rw [cut_token token after _ stands semicolon, ih, cut_cons token tokens semicolon]
      cases cut tokens with
      | nil => rfl
      | cons first others =>
        rw [List.modifyHead_cons, List.map_cons, List.map_cons, List.modifyHead_cons, bytes_append]

theorem intercalate_flatMap {First Second : Type} (expand : First → List Second)
    (separator : List First) (lists : List (List First)) :
    (separator.intercalate lists).flatMap expand =
      (separator.flatMap expand).intercalate (lists.map (·.flatMap expand)) := by
  induction lists with
  | nil => rfl
  | cons list lists ih =>
    cases lists with
    | nil => simp
    | cons next lists => simp_all

/-- With the semicolons back between them, the pieces are all that the tokens leave. -/
theorem intercalate_cut (tokens : List Token) :
    [';'].intercalate (cut tokens) = tokens.flatMap Token.kept := by
  have whole := intercalate_flatMap Token.kept [.char ';'] (tokens.splitOn (.char ';'))
  rw [List.intercalate_splitOn] at whole
  exact whole.symm

/-- A script is read by its bytes. If something in it is not closed, that is the error, with its
place; otherwise its statements are the trimmed pieces between semicolons, without the comments. -/
theorem statements_tokens (script : String) :
    ∃ tokens rest, Reading (bytes script.toList) tokens rest ∧
      (∀ others left, Reading (bytes script.toList) others left → others = tokens ∧ left = rest) ∧
      (rest = [] → ∃ texts : List (List Char), texts.map bytes = cut tokens ∧
        [';'].intercalate (texts.map bytes) = tokens.flatMap Token.kept ∧
        statements script =
          .ok (((texts.map trim).filter fun piece => !piece.isEmpty).map String.ofList)) ∧
      (rest ≠ [] → ∃ fault, Unclosed fault rest ∧
        statements script =
          .error (.parse (fault (tokens.flatMap Token.text).length) [] script)) := by
  obtain ⟨tokens, rest, reading, ends⟩ := exists_reading script.toList
  have again := reading.encoded _ _ _ ends
  obtain ⟨whole, broken⟩ := pieces_of_reading _ _ _ reading
  refine ⟨tokens.flatMap Token.encoded, bytes rest, again, again.unique, fun ended => ?_,
    fun unended => ?_⟩
  · have none : rest = [] := by
      rcases ends with none | ⟨fault, unclosed⟩
      · exact none
      · have empty := unclosed.bytes
        rw [ended] at empty
        cases empty
    obtain ⟨found, cuts, same⟩ := whole none
    refine ⟨cut tokens, (cut_encoded _ _ _ reading).symm, ?_, ?_⟩
    · rw [← cut_encoded _ _ _ reading, intercalate_cut]
    · exact statements_of_pieces script _ found cuts same
  · rcases ends with rfl | ⟨fault, unclosed⟩
    · exact absurd rfl unended
    · refine ⟨fault, unclosed.bytes, ?_⟩
      have sizes := congrArg List.length again.split
      rw [List.length_append, length_bytes, length_bytes] at sizes
      have place : byteSize script.toList - byteSize rest =
          ((tokens.flatMap Token.encoded).flatMap Token.text).length := by
        omega
      simp only [statements, broken fault unclosed, place]

end Script

end SqlCompose
