import SqlCompose.Error
import SqlCompose.Text.Blank
import SqlCompose.Text.Bytes
import SqlCompose.Text.Quoting

/-! Scripts of several statements. A semicolon ends a statement unless it stands in a literal or a
comment. A line comment ends before its newline; a block comment counts as one space. -/
namespace SqlCompose.Script

def afterComment? : List Char → Option (List Char)
  | [] => none
  | '*' :: '/' :: rest => some rest
  | _ :: rest => afterComment? rest

theorem afterComment?_length (text left : List Char) (found : afterComment? text = some left) :
    left.length ≤ text.length := by
  fun_induction afterComment? text with
  | case1 => simp at found
  | case2 rest =>
    simp only [Option.some.injEq] at found
    subst found
    simp only [List.length_cons]
    omega
  | case3 _ _ _ ih =>
    have := ih found
    simp only [List.length_cons]
    omega

def beforeNewline (text : List Char) : List Char := text.dropWhile (· ≠ '\n')

theorem beforeNewline_length (text : List Char) : (beforeNewline text).length ≤ text.length := by
  simpa [beforeNewline] using (List.dropWhile_sublist (· ≠ '\n')).length_le

structure Pieces where
  first : List Char
  others : List (List Char)

def Pieces.behind (text : List Char) (pieces : Pieces) : Pieces :=
  { pieces with first := text ++ pieces.first }

def Pieces.cut (pieces : Pieces) : Pieces := ⟨[], pieces.first :: pieces.others⟩

/-- Cuts a text at its semicolons and takes the comments out. An error tells what is not closed and
how many bytes stand behind its beginning. -/
def pieces : List Char → Except ((Nat → ParseFault) × Nat) Pieces
  | [] => .ok ⟨[], []⟩
  | ';' :: rest => (pieces rest).map Pieces.cut
  | '-' :: '-' :: rest => pieces (beforeNewline rest)
  | '/' :: '*' :: rest =>
    match found : afterComment? rest with
    | none => .error (.unterminatedComment, Text.byteSize rest + 2)
    | some left => (pieces left).map (Pieces.behind [' '])
  | char :: rest =>
    if Text.isQuote char then
      match found : Text.literal? char rest with
      | none => .error (.unterminatedQuote, Text.byteSize rest + 1)
      | some (part, left) => (pieces left).map (Pieces.behind (char :: part))
    else (pieces rest).map (Pieces.behind [char])
termination_by text => text.length
decreasing_by
  · simp
  · have := beforeNewline_length rest
    simp only [List.length_cons]
    omega
  · have := afterComment?_length rest left found
    simp only [List.length_cons]
    omega
  · have := Text.literal?_shorter char rest part left found
    simp only [List.length_cons]
    omega
  · simp

def statements (script : String) : Except Error (List String) :=
  let text := script.toList
  match pieces text with
  | .ok found =>
    let trimmed := (found.first :: found.others).map Text.trim
    .ok ((trimmed.filter fun piece => !piece.isEmpty).map String.ofList)
  | .error (fault, behind) => .error (.parse (fault (Text.byteSize text - behind)) [] script)

def load (file : Option (List UInt8)) : Except Error (List String) :=
  match file with
  | none => .error (.file .missing)
  | some bytes =>
    match String.fromUTF8? ⟨bytes.toArray⟩ with
    | none => .error (.file .notText)
    | some script => statements script

end SqlCompose.Script
