import SqlCompose.Proofs.Lexing
import SqlCompose.Text.Bytes

/-! A text is read like its bytes: the bytes of a character outside ASCII have no meaning of their
own, in literals, in groups and between keywords. -/
namespace SqlCompose

namespace Text

theorem isWide_of_isQuote (char : Char) (quoted : isQuote char = true) : isWide char = false := by
  rcases eq_of_isQuote char quoted with rfl | rfl | rfl <;> decide

theorem isWide_of_isAsciiBlank (char : Char) (blank : isAsciiBlank char = true) :
    isWide char = false := by
  rcases eq_of_isAsciiBlank char blank with rfl | rfl | rfl | rfl | rfl <;> decide

theorem isWide_of_isAlpha (char : Char) (alphabetic : char.isAlpha = true) :
    isWide char = false := by
  have bounded : char.toNat ≤ 122 := by
    rcases Bool.or_eq_true_iff.mp alphabetic with upper | lower
    · have both := of_decide_eq_true upper
      exact Nat.le_trans (UInt32.le_iff_toNat_le.mp both.2) (by decide)
    · have most := of_decide_eq_true (Bool.and_eq_true_iff.mp lower).2
      exact UInt32.le_iff_toNat_le.mp most
  rw [isWide, decide_eq_false_iff_not]
  omega

theorem ne_of_isWide (char other : Char) (wide : isWide char = true)
    (narrow : isWide other = false) : char ≠ other := by
  rintro rfl
  rw [narrow] at wide
  cases wide

theorem plain_of_isWide (char : Char) (wide : isWide char = true) :
    isQuote char = false ∧ char ≠ '(' ∧ char ≠ ')' ∧ char ≠ '\x5c' ∧
      isAsciiBlank char = false ∧ char.isAlpha = false := by
  refine ⟨?_, ne_of_isWide char '(' wide (by decide), ne_of_isWide char ')' wide (by decide),
    ne_of_isWide char '\x5c' wide (by decide), ?_, ?_⟩
  · by_contra quoted
    rw [isWide_of_isQuote char (by simpa using quoted)] at wide
    cases wide
  · by_contra blank
    rw [isWide_of_isAsciiBlank char (by simpa using blank)] at wide
    cases wide
  · by_contra alphabetic
    rw [isWide_of_isAlpha char (by simpa using alphabetic)] at wide
    cases wide

section Rest

variable {State : Type} (step : State → Char → Option State) (settled : State → State)
  (Live : State → Prop)
  (rests : ∀ state char, Live state → isWide char = true → step state char = some (settled state))
  (rested : ∀ state, settled (settled state) = settled state)
  (lives : ∀ state char next, Live state → step state char = some next → Live next)

include rests rested lives

theorem readUntil_wide (state : State) (live : Live state) (more rest : List Char)
    (filled : more ≠ []) (wide : ∀ byte ∈ more, isWide byte = true) :
    readUntil step state (more ++ rest) =
      (readUntil step (settled state) rest).map fun (part, left) => (more ++ part, left) := by
  induction more generalizing state with
  | nil => exact absurd rfl filled
  | cons byte more ih =>
    have stepped := rests state byte live (wide byte List.mem_cons_self)
    rw [List.cons_append, readUntil, stepped]
    cases more with
    | nil => rfl
    | cons next more =>
      have later := ih (settled state) (lives state byte _ live stepped) (by simp)
        fun other member => wide other (List.mem_cons_of_mem _ member)
      simp only [later, rested, Option.map_map]
      rfl

/-- A reader that wide characters bring to rest reads bytes as it reads the text. -/
theorem readUntil_bytes (state : State) (live : Live state) (text : List Char) :
    readUntil step state (bytes text) =
      (readUntil step state text).map fun (part, left) => (bytes part, bytes left) := by
  induction text generalizing state with
  | nil => rfl
  | cons char rest ih =>
    rw [bytes_cons]
    cases wide : isWide char with
    | true =>
      obtain ⟨filled, each⟩ := bytes_wide char wide
      have stepped := rests state char live wide
      rw [readUntil_wide step settled Live rests rested lives state live _ _ filled each,
        readUntil, stepped]
      simp only [ih (settled state) (lives state char _ live stepped), Option.map_map]
      refine congrArg (Option.map · _) (funext fun read => ?_)
      simp only [Function.comp_apply]
      rw [bytes_cons char read.1]
    | false =>
      rw [bytes_narrow char wide, List.singleton_append, readUntil, readUntil]
      cases stepped : step state char with
      | none => simp [bytes_narrow char wide]
      | some next =>
        simp only [ih next (lives state char next live stepped), Option.map_map]
        refine congrArg (Option.map · _) (funext fun read => ?_)
        simp only [Function.comp_apply]
        rw [bytes_cons char read.1, bytes_narrow char wide]
        rfl

end Rest

namespace Quoting

def settled : Quoting → Quoting
  | .escaped quote => .inside quote
  | state => state

/-- A state that comes about by reading: literals begin with quotes. -/
def Live : Quoting → Prop
  | .plain => True
  | .inside quote => isQuote quote = true
  | .escaped quote => isQuote quote = true

theorem live_step (state : Quoting) (char : Char) (live : state.Live) : (state.step char).Live := by
  cases state with
  | plain =>
    cases quoted : isQuote char <;> simp [step, quoted, Live]
  | inside quote =>
    by_cases escape : char = '\x5c'
    · have stepped : step (.inside quote) char = .escaped quote := by simp [step, escape]
      rw [stepped]
      exact live
    · by_cases closing : char = quote
      · subst closing
        simp [step, escape, Live]
      · simpa [step, escape, closing] using live
  | escaped quote => exact live

theorem step_wide (state : Quoting) (char : Char) (live : state.Live) (wide : isWide char = true) :
    state.step char = state.settled := by
  obtain ⟨unquoted, _, _, unescaped, _⟩ := plain_of_isWide char wide
  cases state with
  | plain => simp [step, settled, unquoted]
  | inside quote =>
    have other := ne_of_isWide char quote wide (isWide_of_isQuote quote live)
    simp [step, settled, unescaped, other]
  | escaped quote => rfl

theorem settled_settled (state : Quoting) : state.settled.settled = state.settled := by
  cases state <;> rfl

end Quoting

theorem literal?_bytes (quote : Char) (quoted : isQuote quote = true) (text : List Char) :
    literal? quote (bytes text) =
      (literal? quote text).map fun (part, left) => (bytes part, bytes left) := by
  refine readUntil_bytes Quoting.within Quoting.settled (fun state => state.Live ∧ state ≠ .plain)
    ?_ Quoting.settled_settled ?_ (.inside quote) ⟨quoted, by simp⟩ text
  · intro state char live wide
    rw [Quoting.within, state.step_wide char live.1 wide]
    cases state with
    | plain => exact absurd rfl live.2
    | inside quote => rfl
    | escaped quote => rfl
  · intro state char next live stepped
    have kept := state.live_step char live.1
    rw [Quoting.within] at stepped
    split at stepped
    · cases stepped
    · rename_i _ unended
      cases stepped
      exact ⟨kept, unended⟩

theorem group?_bytes (text : List Char) :
    group? (bytes text) = (group? text).map fun (part, left) => (bytes part, bytes left) := by
  refine readUntil_bytes Nesting.within (fun state => ⟨state.depth, state.quoting.settled⟩)
    (fun state => state.quoting.Live) ?_ ?_ ?_ ⟨0, .plain⟩ trivial text
  · intro state char live wide
    obtain ⟨_, opening, closing, _⟩ := plain_of_isWide char wide
    have stepped := state.quoting.step_wide char live wide
    obtain ⟨depth, quoting⟩ := state
    cases quoting <;> simp_all [Nesting.within]
  · intro state
    simp [Quoting.settled_settled]
  · intro state char next live stepped
    have kept := state.quoting.live_step char live
    unfold Nesting.within at stepped
    split at stepped <;> cases stepped
    · trivial
    · trivial
    · exact kept

end Text

open Text

theorem Clause.begins_wide (keyword : List Char) (char : Char) (rest : List Char)
    (lettered : ∀ letter ∈ keyword, letter.isAlpha = true ∨ letter = ' ')
    (wide : isWide char = true) : begins keyword (char :: rest) = false := by
  obtain ⟨_, _, _, _, unblank, unlettered⟩ := plain_of_isWide char wide
  cases keyword with
  | nil => exact unblank
  | cons letter keyword =>
    have other : letter ≠ char := by
      rintro rfl
      rcases lettered letter List.mem_cons_self with alphabetic | space
      · rw [unlettered] at alphabetic
        cases alphabetic
      · rw [space] at wide
        exact absurd wide (by decide)
    rw [begins, toUpper_of_not_isAlpha char unlettered, decide_eq_false other, Bool.false_and]

theorem Clause.begins_bytes (keyword text : List Char)
    (lettered : ∀ letter ∈ keyword, letter.isAlpha = true ∨ letter = ' ') :
    begins keyword (bytes text) = begins keyword text := by
  induction text generalizing keyword with
  | nil => rfl
  | cons char rest ih =>
    rw [bytes_cons]
    cases wide : isWide char with
    | true =>
      obtain ⟨filled, each⟩ := bytes_wide char wide
      obtain ⟨byte, more, split⟩ := List.exists_cons_of_ne_nil filled
      have first := each byte (by simp [split])
      rw [split, List.cons_append, begins_wide keyword byte _ lettered first,
        begins_wide keyword char rest lettered wide]
    | false =>
      rw [bytes_narrow char wide, List.singleton_append]
      cases keyword with
      | nil => rfl
      | cons letter keyword =>
        rw [begins, begins, ih keyword fun other member =>
          lettered other (List.mem_cons_of_mem _ member)]

theorem Clause.at?_bytes (text : List Char) : at? (bytes text) = at? text := by
  unfold at?
  congr 1
  funext clause
  exact begins_bytes _ text (keyword_lettered clause)

namespace Lexed

def encoded (lexed : Lexed) : Lexed :=
  ⟨bytes lexed.lead, lexed.parts.map fun part => (part.1, bytes part.2), lexed.unclosed⟩

theorem ofText_wide (boundary : Bool) (text rest : List Char) (filled : text ≠ [])
    (wide : ∀ char ∈ text, isWide char = true) :
    ofText boundary (text ++ rest) = (ofText false rest).behind text := by
  induction text generalizing boundary with
  | nil => exact absurd rfl filled
  | cons char text ih =>
    obtain ⟨unquoted, ungrouped, _, _, unblank, unlettered⟩ :=
      plain_of_isWide char (wide char List.mem_cons_self)
    have unkeyed := Clause.at?_of_unlettered char (text ++ rest) unlettered
    rw [List.cons_append, ofText_step boundary char _ unquoted ungrouped fun _ => unkeyed, unblank]
    cases text with
    | nil => rfl
    | cons next text =>
      rw [ih false (by simp) fun other member => wide other (List.mem_cons_of_mem _ member)]
      rfl

theorem encoded_behind (front : List Char) (lexed : Lexed) :
    (lexed.behind front).encoded = lexed.encoded.behind (bytes front) := by
  simp [encoded, behind, bytes_append]

theorem encoded_startingWith (clause : Clause) (lexed : Lexed) :
    (lexed.startingWith clause).encoded = lexed.encoded.startingWith clause := by
  simp [encoded, startingWith, bytes]

theorem ofText_bytes_plain (boundary : Bool) (char : Char) (rest : List Char)
    (unquoted : isQuote char = false) (ungrouped : char ≠ '(')
    (read : ofText (isAsciiBlank char) (bytes rest) = (ofText (isAsciiBlank char) rest).encoded) :
    ofText boundary (bytes (char :: rest)) = (ofText boundary (char :: rest)).encoded := by
  cases wide : isWide char with
  | true =>
    -- Several steps in place of one, and a keyword begins at none of them.
    obtain ⟨_, _, _, _, unblank, unlettered⟩ := plain_of_isWide char wide
    obtain ⟨filled, each⟩ := bytes_wide char wide
    have unkeyed := Clause.at?_of_unlettered char rest unlettered
    rw [ofText_step boundary char rest unquoted ungrouped fun _ => unkeyed, encoded_behind, ← read,
      bytes_cons, ofText_wide boundary _ _ filled each, unblank]
  | false =>
    have same := Clause.at?_bytes (char :: rest)
    have cons : bytes (char :: rest) = char :: bytes rest := by
      rw [bytes_cons, bytes_narrow char wide, List.singleton_append]
    rw [cons] at same ⊢
    rw [ofText_plain boundary char _ unquoted ungrouped,
      ofText_plain boundary char _ unquoted ungrouped, same, read]
    cases if boundary then Clause.at? (char :: rest) else none with
    | none => rw [encoded_behind, bytes_narrow char wide]
    | some clause => rw [encoded_startingWith, encoded_behind, bytes_narrow char wide]

/-- Reading the bytes of a text gives the bytes of what is read of it. -/
theorem ofText_bytes (boundary : Bool) (text : List Char) :
    ofText boundary (bytes text) = (ofText boundary text).encoded := by
  have bytes_quote (quote : Char) (rest : List Char) (quoted : isQuote quote = true) :
      bytes (quote :: rest) = quote :: bytes rest := by
    rw [bytes_cons, bytes_narrow quote (isWide_of_isQuote quote quoted), List.singleton_append]
  have bytes_opening (rest : List Char) : bytes ('(' :: rest) = '(' :: bytes rest :=
    bytes_cons '(' rest
  induction boundary, text using ofText.induct with
  | case1 boundary =>
    have none : bytes [] = [] := rfl
    rw [none, ofText]
    rfl
  | case2 boundary char rest quoted unread =>
    have again := literal?_bytes char quoted rest
    rw [unread] at again
    rw [bytes_quote char rest quoted, ofText_unclosed_literal boundary char _ quoted again,
      ofText_unclosed_literal boundary char rest quoted unread]
    rfl
  | case3 boundary char rest quoted part left read ih =>
    have again := literal?_bytes char quoted rest
    rw [read] at again
    rw [bytes_quote char rest quoted, ofText_literal boundary char _ _ _ quoted again, ih,
      ofText_literal boundary char part left rest quoted read, encoded_behind,
      bytes_quote char part quoted]
  | case4 boundary rest unread unquoted =>
    have again := group?_bytes rest
    rw [unread] at again
    rw [bytes_opening, ofText_unclosed_group boundary _ again,
      ofText_unclosed_group boundary rest unread]
    rfl
  | case5 boundary rest part left read unquoted ih =>
    have again := group?_bytes rest
    rw [read] at again
    rw [bytes_opening, ofText_group boundary _ _ _ again, ih,
      ofText_group boundary part left rest read, encoded_behind, bytes_opening]
  | case6 boundary char rest unquoted ungrouped clause found ih =>
    exact ofText_bytes_plain boundary char rest (by simpa using unquoted) ungrouped ih
  | case7 boundary char rest unquoted ungrouped found ih =>
    exact ofText_bytes_plain boundary char rest (by simpa using unquoted) ungrouped ih

end Lexed

end SqlCompose
