import Resumable.Decimal
import Resumable.Text.Quoted
import Resumable.Value.Basic

namespace Resumable

def bracketed (items : List String) : String :=
  "[" ++ String.intercalate ", " items ++ "]"

namespace Value

def display : Value → String
  | unit => "()"
  | bool true => "true"
  | bool false => "false"
  | int n => toString n.toInt
  | float x => x.text
  | str s => Text.quoted s
  | shared identity => "Shared(#" ++ identity ++ ")"

def plain : Value → String
  | str s => s
  | v => v.display

def displayKeys (keys : List Value) : String :=
  bracketed (keys.map display)

end Value

end Resumable
