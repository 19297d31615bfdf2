import SqlCompose.Text.Group

/-! Texts cut at their marks, the question marks outside literals. A literal that is left open
reaches to the end of its text. -/
namespace SqlCompose.Text

inductive Unmarked : List Char → Prop
  | nil : Unmarked []
  | literal (quote : Char) (part rest : List Char) (quoted : isQuote quote = true)
      (ends : LiteralEnd quote part) (unmarked : Unmarked rest) : Unmarked (quote :: (part ++ rest))
  | plain (char : Char) (rest : List Char) (unquoted : isQuote char = false) (other : char ≠ '?')
      (unmarked : Unmarked rest) : Unmarked (char :: rest)

inductive LiteralsClosed : List Char → Prop
  | nil : LiteralsClosed []
  | literal (quote : Char) (part rest : List Char) (quoted : isQuote quote = true)
      (ends : LiteralEnd quote part) (closed : LiteralsClosed rest) :
      LiteralsClosed (quote :: (part ++ rest))
  | plain (char : Char) (rest : List Char) (unquoted : isQuote char = false)
      (closed : LiteralsClosed rest) : LiteralsClosed (char :: rest)

inductive LeftOpen : List Char → Prop
  | nil : LeftOpen []
  | literal (quote : Char) (rest : List Char) (quoted : isQuote quote = true)
      (unended : ∀ part, LiteralEnd quote part → ¬part <+: rest) : LeftOpen (quote :: rest)

inductive Cut : List Char → List (List Char) → Prop
  | last (piece rest : List Char) (unmarked : Unmarked piece) (left_open : LeftOpen rest) :
      Cut (piece ++ rest) [piece ++ rest]
  | mark (piece rest : List Char) (pieces : List (List Char)) (unmarked : Unmarked piece)
      (cut : Cut rest pieces) : Cut (piece ++ '?' :: rest) (piece :: pieces)

/-- Pieces of a text with a dollar sign and a number between any two, from a given number on. -/
def numberedFrom (number : Nat) (first : List Char) (others : List (List Char)) : List Char :=
  first ++ (others.zipIdx number).flatMap fun (piece, own) => '$' :: Nat.toDigits 10 own ++ piece

/-- The places of the placeholders in a text whose first character is at a given place. -/
def Quoting.marks : Quoting → Nat → List Char → List Nat
  | _, _, [] => []
  | .plain, place, '?' :: rest => place :: marks .plain (place + 1) rest
  | state, place, char :: rest => marks (state.step char) (place + 1) rest

end SqlCompose.Text
