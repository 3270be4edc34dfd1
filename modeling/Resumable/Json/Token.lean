import Resumable.Json.Basic

namespace Resumable.Json

inductive Token where
  | openArray
  | closeArray
  | openObject
  | closeObject
  | comma
  | colon
  | null
  | bool (b : Bool)
  | number (digits : List Char)
  | text (codes : CodePoints)
  deriving DecidableEq

namespace Token

inductive Pending where
  | nothing
  | word (letters : List Char)
  | number (digits : List Char)
  | text (codes : CodePoints)
  | escape (codes : CodePoints)
  /-- In an escape by code point, with that many hexadecimal digits to come. -/
  | code (codes : CodePoints) (missing : Nat) (value : Nat)

structure Scan where
  tokens : List Token := []
  pending : Pending := .nothing

def isBlank (c : Char) : Bool :=
  c = ' ' || c = '\n' || c = '\t' || c = '\r'

/-- A fraction: nothing, or a point and digits. Gives what follows it. -/
def afterFraction? : List Char → Option (List Char)
  | '.' :: c :: rest => if c.isDigit then some (rest.dropWhile Char.isDigit) else none
  | ['.'] => none
  | rest => some rest

def isExponent : List Char → Bool
  | [] => true
  | e :: rest =>
    let digits := match rest with
      | '+' :: ds => ds
      | '-' :: ds => ds
      | ds => ds
    (e = 'e' || e = 'E') && !digits.isEmpty && digits.all Char.isDigit

/-- Whether characters are a number of JSON: perhaps a minus, digits without a needless leading
zero, perhaps a fraction, perhaps an exponent. -/
def isNumber (cs : List Char) : Bool :=
  let unsigned := match cs with
    | '-' :: rest => rest
    | rest => rest
  match unsigned with
  | '0' :: rest => ((afterFraction? rest).map isExponent).getD false
  | c :: rest =>
    c.isDigit && ((afterFraction? (rest.dropWhile Char.isDigit)).map isExponent).getD false
  | [] => false

def inNumber (c : Char) : Bool :=
  c.isDigit || c = '-' || c = '+' || c = '.' || c = 'e' || c = 'E'

def ofWord? (letters : List Char) : Option Token :=
  if letters = "null".toList then some .null
  else if letters = "true".toList then some (.bool true)
  else if letters = "false".toList then some (.bool false)
  else none

def ofNumber? (digits : List Char) : Option Token :=
  if isNumber digits then some (.number digits) else none

def ofPunctuation? (c : Char) : Option Token :=
  match c with
  | '[' => some .openArray
  | ']' => some .closeArray
  | '\x7b' => some .openObject
  | '\x7d' => some .closeObject
  | ',' => some .comma
  | ':' => some .colon
  | _ => none

def hexDigit? (c : Char) : Option Nat :=
  if c.isDigit then some (c.toNat - '0'.toNat)
  else if 'a' ≤ c && c ≤ 'f' then some (c.toNat - 'a'.toNat + 10)
  else if 'A' ≤ c && c ≤ 'F' then some (c.toNat - 'A'.toNat + 10)
  else none

def ofEscape? (c : Char) : Option Nat :=
  match c with
  | '"' => some 0x22
  | '\\' => some 0x5C
  | '/' => some 0x2F
  | 'b' => some 0x08
  | 'f' => some 0x0C
  | 'n' => some 0x0A
  | 'r' => some 0x0D
  | 't' => some 0x09
  | _ => none

namespace Scan

def start (s : Scan) (c : Char) : Option Scan :=
  if isBlank c then some s
  else if c = '"' then some { s with pending := .text [] }
  else if c.isDigit || c = '-' then some { s with pending := .number [c] }
  else if c.isAlpha then some { s with pending := .word [c] }
  else (ofPunctuation? c).map fun t => { s with tokens := t :: s.tokens }

/-- Ends a word or a number; nothing else can end without a character of its own. -/
def settle (s : Scan) : Option Scan :=
  match s.pending with
  | .nothing => some s
  | .word letters => (ofWord? letters).map fun t => { tokens := t :: s.tokens }
  | .number digits => (ofNumber? digits).map fun t => { tokens := t :: s.tokens }
  | _ => none

def feed (s : Scan) (c : Char) : Option Scan :=
  match s.pending with
  | .nothing => s.start c
  | .word letters =>
    if c.isAlpha then some { s with pending := .word (letters ++ [c]) }
    else s.settle.bind (·.start c)
  | .number digits =>
    if inNumber c then some { s with pending := .number (digits ++ [c]) }
    else s.settle.bind (·.start c)
  | .text codes =>
    if c = '"' then some { tokens := .text codes.joinSurrogates :: s.tokens }
    else if c = '\\' then some { s with pending := .escape codes }
    else if c.toNat < 0x20 then none
    else some { s with pending := .text (codes ++ [c.toNat]) }
  | .escape codes =>
    if c = 'u' then some { s with pending := .code codes 4 0 }
    else (ofEscape? c).map fun code => { s with pending := .text (codes ++ [code]) }
  | .code codes missing value =>
    (hexDigit? c).map fun digit =>
      let grown := 0x10 * value + digit
      if missing ≤ 1 then { s with pending := .text (codes ++ [grown]) }
      else { s with pending := .code codes (missing - 1) grown }

end Scan

def ofChars? (cs : List Char) : Option (List Token) := do
  let scan ← cs.foldlM Scan.feed {}
  let settled ← scan.settle
  pure settled.tokens.reverse

end Token

end Resumable.Json
