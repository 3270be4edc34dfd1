namespace Resumable

abbrev CodePoints := List Nat

namespace CodePoints

def ofString (s : String) : CodePoints :=
  s.toList.map Char.toNat

def isHighSurrogate (code : Nat) : Bool :=
  0xD800 ≤ code && code < 0xDC00

def isLowSurrogate (code : Nat) : Bool :=
  0xDC00 ≤ code && code < 0xE000

def isSurrogate (code : Nat) : Bool :=
  0xD800 ≤ code && code < 0xE000

/-- Every surrogate pair becomes the code point it stands for. -/
def joinSurrogates : CodePoints → CodePoints
  | high :: low :: rest =>
    if isHighSurrogate high && isLowSurrogate low then
      (0x10000 + (high - 0xD800) * 0x400 + (low - 0xDC00)) :: joinSurrogates rest
    else
      high :: joinSurrogates (low :: rest)
  | rest => rest

def content? (codes : CodePoints) : Option String :=
  if codes.any isSurrogate then none else some (String.ofList (codes.map Char.ofNat))

end CodePoints

inductive Json where
  | null
  | bool (b : Bool)
  | number (digits : List Char)
  | text (codes : CodePoints)
  | array (items : List Json)
  | object (members : List (CodePoints × Json))

namespace Json

def ofNat (n : Nat) : Json :=
  number (Nat.toDigits 10 n)

def ofString (s : String) : Json :=
  text (CodePoints.ofString s)

def ofMembers (members : List (String × Json)) : Json :=
  object (members.map fun (key, value) => (CodePoints.ofString key, value))

def content? : Json → Option String
  | text codes => codes.content?
  | _ => none

def natural? : Json → Option Nat
  | number digits =>
    if digits.all Char.isDigit then
      some (digits.foldl (fun n c => 10 * n + (c.toNat - '0'.toNat)) 0)
    else
      none
  | _ => none

end Json

end Resumable
