/-! Quoted literals. A literal opens with an apostrophe, a double quote or a backquote and closes
with the same character; inside it a backslash takes the meaning from the next character. -/
namespace SqlCompose.Text

/-- Reads up to and including the character at which the step answers none, and gives what was
read and what is left. -/
def readUntil {State : Type} (step : State → Char → Option State) :
    State → List Char → Option (List Char × List Char)
  | _, [] => none
  | state, char :: rest =>
    match step state char with
    | none => some ([char], rest)
    | some next => (readUntil step next rest).map fun (part, left) => (char :: part, left)

theorem readUntil_cons_eq_some_iff {State : Type} (step : State → Char → Option State)
    (state : State) (char : Char) (rest part left : List Char) :
    readUntil step state (char :: rest) = some (part, left) ↔
      step state char = none ∧ part = [char] ∧ left = rest ∨
      ∃ next inner, step state char = some next ∧ readUntil step next rest = some (inner, left) ∧
        part = char :: inner := by
  rw [readUntil]
  cases step state char with
  | none => simp [eq_comm]
  | some next =>
    simp only [reduceCtorEq, false_and, false_or, Option.map_eq_some_iff, Prod.mk.injEq,
      Option.some.injEq, Prod.exists]
    constructor
    · rintro ⟨inner, after, read, rfl, rfl⟩
      exact ⟨next, inner, rfl, read, rfl⟩
    · rintro ⟨_, inner, rfl, read, rfl⟩
      exact ⟨inner, left, read, rfl, rfl⟩

theorem readUntil_append {State : Type} (step : State → Char → Option State) (state : State)
    (text part left : List Char) (read : readUntil step state text = some (part, left)) :
    text = part ++ left ∧ part ≠ [] := by
  induction text generalizing state part with
  | nil => simp [readUntil] at read
  | cons char rest ih =>
    rw [readUntil_cons_eq_some_iff] at read
    rcases read with ⟨_, rfl, rfl⟩ | ⟨next, inner, _, inside, rfl⟩
    · simp
    · simp [(ih next inner inside).1]

theorem readUntil_shorter {State : Type} (step : State → Char → Option State) (state : State)
    (text part left : List Char) (read : readUntil step state text = some (part, left)) :
    left.length < text.length := by
  obtain ⟨rfl, nonempty⟩ := readUntil_append step state text part left read
  have := List.length_pos_iff.mpr nonempty
  simp only [List.length_append]
  omega

def isQuote (char : Char) : Bool := char = '\x27' || char = '\x22' || char = '\x60'

theorem eq_of_isQuote (char : Char) (quoted : isQuote char = true) :
    char = '\x27' ∨ char = '\x22' ∨ char = '\x60' := by
  simpa [isQuote, or_assoc] using quoted

inductive Quoting
  | plain
  | inside (quote : Char)
  | escaped (quote : Char)
  deriving DecidableEq

def Quoting.step : Quoting → Char → Quoting
  | .plain, char => if isQuote char then .inside char else .plain
  | .inside quote, char =>
    if char = '\x5c' then .escaped quote else if char = quote then .plain else .inside quote
  | .escaped quote, _ => .inside quote

def Quoting.within (state : Quoting) (char : Char) : Option Quoting :=
  match state.step char with
  | .plain => none
  | next => some next

def literal? (quote : Char) (text : List Char) : Option (List Char × List Char) :=
  readUntil Quoting.within (.inside quote) text

theorem literal?_shorter (quote : Char) (text part left : List Char)
    (read : literal? quote text = some (part, left)) : left.length < text.length :=
  readUntil_shorter _ _ _ _ _ read

end SqlCompose.Text
