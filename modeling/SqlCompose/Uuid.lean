import SqlCompose.Json.Written

/-! Universally unique identifiers and their texts. -/
namespace SqlCompose

structure Uuid where
  bits : BitVec 128
  deriving DecidableEq

namespace Uuid

def digits (uuid : Uuid) : List Nat :=
  (List.range 32).map fun index => uuid.bits.toNat / Nat.pow 16 (31 - index) % 16

def bytes (uuid : Uuid) : List UInt8 :=
  (List.range 16).map fun index => (uuid.bits.toNat / Nat.pow 256 (15 - index)).toUInt8

def ofDigits (digits : List Nat) : Uuid :=
  ⟨BitVec.ofNat 128 (digits.foldl (fun value digit => value * 16 + digit) 0)⟩

def groupLengths : List Nat := [8, 4, 4, 4, 12]

def hyphenate : List Nat → List Char → List Char
  | [], _ => []
  | [length], digits => digits.take length
  | length :: lengths, digits =>
    digits.take length ++ '-' :: hyphenate lengths (digits.drop length)

def unhyphenate? : List Nat → List Char → Option (List Char)
  | [], text => if text.isEmpty then some [] else none
  | [length], text => if text.length = length then some text else none
  | length :: lengths, text =>
    match text.drop length with
    | '-' :: rest => (unhyphenate? lengths rest).map (text.take length ++ ·)
    | _ => none

def write (uuid : Uuid) : String :=
  String.ofList (hyphenate groupLengths (uuid.digits.map Nat.digitChar))

def ofHex? (text : List Char) : Option Uuid :=
  if text.length = 32 then (text.mapM Json.hexValue?).map ofDigits else none

def ofHyphenated? (text : List Char) : Option Uuid := (unhyphenate? groupLengths text).bind ofHex?

def urnScheme : List Char := ['u', 'r', 'n', ':', 'u', 'u', 'i', 'd', ':']

/-- Plain digits, the hyphenated form, or that form in braces or behind the URN scheme. -/
def read? (text : List Char) : Option Uuid :=
  match text.length with
  | 32 => ofHex? text
  | 36 => ofHyphenated? text
  | 38 =>
    if text.head? = some '\x7b' && text.getLast? = some '\x7d' then
      ofHyphenated? ((text.drop 1).take 36)
    else none
  | 45 =>
    if (text.take 9).map Char.toLower = urnScheme then ofHyphenated? (text.drop 9) else none
  | _ => none

end Uuid

end SqlCompose
