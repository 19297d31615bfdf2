import SqlCompose.Text.Extending
import SqlCompose.Text.Unassigned

/-! Text in double quotes for descriptions, which show printable characters as they are. -/
namespace SqlCompose.Text

/-- The assigned code points beyond the tilde that leave no mark: controls, formats, separators,
the fillers of an empty Hangul place, and private ones, which have no agreed mark. -/
def markless : List (Nat × Nat) :=
  [(0x7f, 0xa0), (0xad, 0xad), (0x600, 0x605), (0x61c, 0x61c), (0x6dd, 0x6dd), (0x70f, 0x70f),
   (0x890, 0x891), (0x8e2, 0x8e2), (0x115f, 0x1160), (0x1680, 0x1680), (0x180e, 0x180e),
   (0x2000, 0x200f), (0x2028, 0x202f), (0x205f, 0x2064), (0x2066, 0x206f), (0x3000, 0x3000),
   (0x3164, 0x3164), (0xe000, 0xf8ff), (0xfeff, 0xfeff), (0xffa0, 0xffa0), (0xfff9, 0xfffb),
   (0x110bd, 0x110bd), (0x110cd, 0x110cd), (0x13430, 0x1343f), (0x1bca0, 0x1bca3),
   (0x1d173, 0x1d17a), (0xe0001, 0xe0001), (0xe0020, 0xe007f), (0xf0000, 0xffffd),
   (0x100000, 0x10fffd)]

/-- In ASCII everything from the blank to the tilde; beyond it every assigned character that leaves
a mark of its own. The ASCII answer comes first, so that common text needs no table. -/
def isPrintable (char : Char) : Bool :=
  if char.toNat < 0x7f then decide (0x20 ≤ char.toNat)
  else !(inRanges markless char || isExtending char || isUnassigned char)

def describeChar (char : Char) : List Char :=
  if char = '\x22' || char = '\x5c' then ['\x5c', char]
  else if char = '\n' then ['\x5c', 'n']
  else if char = '\r' then ['\x5c', 'r']
  else if char = '\t' then ['\x5c', 't']
  else if char.toNat = 0 then ['\x5c', '0']
  else if isPrintable char then [char]
  else '\x5c' :: 'u' :: '\x7b' :: Nat.toDigits 16 char.toNat ++ ['\x7d']

def quoted (text : String) : String :=
  String.ofList ('\x22' :: text.toList.flatMap describeChar ++ ['\x22'])

end SqlCompose.Text
