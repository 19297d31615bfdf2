import SqlCompose.Text.Quoting

/-! Parenthesised groups, which nest, and in which a parenthesis in a literal does not count; and
texts cut into what is read at once: a literal, a group, or any other character. -/
namespace SqlCompose.Text

structure Nesting where
  depth : Nat
  quoting : Quoting

def Nesting.within (state : Nesting) (char : Char) : Option Nesting :=
  match state.quoting, state.depth, char with
  | .plain, depth, '(' => some ⟨depth + 1, .plain⟩
  | .plain, 0, ')' => none
  | .plain, depth + 1, ')' => some ⟨depth, .plain⟩
  | quoting, depth, char => some ⟨depth, quoting.step char⟩

def group? (text : List Char) : Option (List Char × List Char) :=
  readUntil Nesting.within ⟨0, .plain⟩ text

theorem group?_shorter (text part left : List Char) (read : group? text = some (part, left)) :
    left.length < text.length :=
  readUntil_shorter _ _ _ _ _ read

def isEnclosed : List Char → Bool
  | [] => false
  | char :: rest =>
    if isQuote char then literal? char rest = some (rest, [])
    else char = '(' && group? rest = some (rest, [])

inductive LiteralEnd (quote : Char) : List Char → Prop
  | close : LiteralEnd quote [quote]
  | escape (char : Char) (rest : List Char) (ends : LiteralEnd quote rest) :
      LiteralEnd quote ('\x5c' :: char :: rest)
  | plain (char : Char) (rest : List Char) (unescaped : char ≠ '\x5c') (inside : char ≠ quote)
      (ends : LiteralEnd quote rest) : LiteralEnd quote (char :: rest)

inductive GroupEnd : List Char → Prop
  | close : GroupEnd [')']
  | literal (quote : Char) (part rest : List Char) (quoted : isQuote quote = true)
      (literal : LiteralEnd quote part) (ends : GroupEnd rest) : GroupEnd (quote :: (part ++ rest))
  | group (part rest : List Char) (inner : GroupEnd part) (ends : GroupEnd rest) :
      GroupEnd ('(' :: (part ++ rest))
  | plain (char : Char) (rest : List Char) (unquoted : isQuote char = false)
      (ungrouped : char ≠ '(' ∧ char ≠ ')') (ends : GroupEnd rest) : GroupEnd (char :: rest)

inductive Atom : List Char → Prop
  | literal (quote : Char) (part : List Char) (quoted : isQuote quote = true)
      (ends : LiteralEnd quote part) : Atom (quote :: part)
  | group (part : List Char) (ends : GroupEnd part) : Atom ('(' :: part)
  | plain (char : Char) (unquoted : isQuote char = false) (ungrouped : char ≠ '(') : Atom [char]

/-- A text read from left to right, as far as that can be done. -/
structure Reading (text : List Char) (atoms : List (List Char)) (rest : List Char) : Prop where
  split : text = atoms.flatten ++ rest
  whole : ∀ atom ∈ atoms, Atom atom
  stuck : ∀ atom, Atom atom → ¬ atom <+: rest

end SqlCompose.Text
