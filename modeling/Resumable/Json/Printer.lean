import Resumable.Json.Basic

namespace Resumable

namespace CodePoints

def hexQuad (n : Nat) : List Char :=
  [n / 0x1000, n / 0x100, n / 0x10, n].map fun q => Nat.digitChar (q % 0x10)

/-- A code point inside a written text: quotes, backslashes, controls and surrogates are escaped,
all others stand as they are. -/
def printCode (code : Nat) : List Char :=
  if code = 0x22 then ['\\', '"']
  else if code = 0x5C then ['\\', '\\']
  else if code = 0x08 then ['\\', 'b']
  else if code = 0x09 then ['\\', 't']
  else if code = 0x0A then ['\\', 'n']
  else if code = 0x0C then ['\\', 'f']
  else if code = 0x0D then ['\\', 'r']
  else if code < 0x20 || isSurrogate code then '\\' :: 'u' :: hexQuad code
  else [Char.ofNat code]

def print (codes : CodePoints) : List Char :=
  '"' :: codes.flatMap printCode ++ ['"']

end CodePoints

namespace Json

def newline (depth : Nat) : List Char :=
  '\n' :: List.replicate (2 * depth) ' '

mutual

def print (depth : Nat) : Json → List Char
  | null => "null".toList
  | bool true => "true".toList
  | bool false => "false".toList
  | number digits => digits
  | text codes => codes.print
  | array [] => ['[', ']']
  | array (item :: items) =>
    '[' :: newline (depth + 1) ++ item.print (depth + 1) ++ printItems (depth + 1) items ++
      newline depth ++ [']']
  | object [] => ['\x7b', '\x7d']
  | object ((key, value) :: members) =>
    '\x7b' :: newline (depth + 1) ++ key.print ++ [':', ' '] ++ value.print (depth + 1) ++
      printMembers (depth + 1) members ++ newline depth ++ ['\x7d']

def printItems (depth : Nat) : List Json → List Char
  | [] => []
  | item :: items => ',' :: newline depth ++ item.print depth ++ printItems depth items

def printMembers (depth : Nat) : List (CodePoints × Json) → List Char
  | [] => []
  | (key, value) :: members =>
    ',' :: newline depth ++ key.print ++ [':', ' '] ++ value.print depth ++
      printMembers depth members

end

def pretty (j : Json) : String :=
  String.ofList (j.print 0)

end Json

end Resumable
