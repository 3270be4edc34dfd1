import Resumable.Text.Unprintable
import Resumable.Text.GraphemeExtend

namespace Resumable.Text

def hex (n : Nat) : List Char :=
  Nat.toDigits 16 n

def escapeCode (c : Char) : List Char :=
  ['\\', 'u', '\x7b'] ++ hex c.toNat ++ ['\x7d']

/-- The Hangul fillers: letters that hold a place and show nothing. -/
def hangulFillers : CharSet :=
  ⟨[0x115f, 0x1161, 0x3164, 0x3165, 0xffa0, 0xffa1]⟩

/-- The halfwidth voiced sound marks of Katakana: they extend the letter before them, and yet have
a place of their own, as letters do. -/
def halfwidthSoundMarks : CharSet :=
  ⟨[0xff9e, 0xffa0]⟩

/-- Whether a character standing in a text would not be seen, or not apart from the one before it.
-/
def isHidden (c : Char) : Bool :=
  unprintable.contains c || hangulFillers.contains c ||
    (graphemeExtend.contains c && !halfwidthSoundMarks.contains c)

def quotedChar (c : Char) : List Char :=
  match c with
  | '"' => ['\\', '"']
  | '\\' => ['\\', '\\']
  | '\n' => ['\\', 'n']
  | '\r' => ['\\', 'r']
  | '\t' => ['\\', 't']
  | '\x00' => ['\\', '0']
  | _ => if isHidden c then escapeCode c else [c]

def quoted (s : String) : String :=
  String.ofList ('"' :: s.toList.flatMap quotedChar ++ ['"'])

example : quoted "it's\n\"\u0301" = "\"it's\\n\\\"\\u\x7b301\x7d\"" := by decide +kernel

example : quoted "\u115f\uff76\uff9e" = "\"\\u\x7b115f\x7d\uff76\uff9e\"" := by decide +kernel

end Resumable.Text
