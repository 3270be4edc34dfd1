import Resumable.Json.Token

namespace Resumable.Json

inductive Level where
  | array (items : List Json)
  | object (members : List (CodePoints × Json)) (key : CodePoints)

inductive Reader where
  | value (outer : List Level)
  | firstItem (outer : List Level)
  | afterItem (items : List Json) (outer : List Level)
  | firstKey (outer : List Level)
  | key (members : List (CodePoints × Json)) (outer : List Level)
  | colon (members : List (CodePoints × Json)) (key : CodePoints) (outer : List Level)
  | afterMember (members : List (CodePoints × Json)) (outer : List Level)
  | finished (document : Json)

namespace Reader

def give (v : Json) : List Level → Reader
  | [] => finished v
  | .array items :: outer => afterItem (items ++ [v]) outer
  | .object members k :: outer => afterMember (members ++ [(k, v)]) outer

def takeValue (outer : List Level) : Token → Option Reader
  | .null => some (give .null outer)
  | .bool b => some (give (.bool b) outer)
  | .number digits => some (give (.number digits) outer)
  | .text codes => some (give (.text codes) outer)
  | .openArray => some (firstItem outer)
  | .openObject => some (firstKey outer)
  | _ => none

def take : Reader → Token → Option Reader
  | value outer, t => takeValue outer t
  | firstItem outer, .closeArray => some (give (.array []) outer)
  | firstItem outer, t => takeValue (.array [] :: outer) t
  | afterItem items outer, .comma => some (value (.array items :: outer))
  | afterItem items outer, .closeArray => some (give (.array items) outer)
  | firstKey outer, .closeObject => some (give (.object []) outer)
  | firstKey outer, .text k => some (colon [] k outer)
  | key members outer, .text k => some (colon members k outer)
  | colon members k outer, .colon => some (value (.object members k :: outer))
  | afterMember members outer, .comma => some (key members outer)
  | afterMember members outer, .closeObject => some (give (.object members) outer)
  | _, _ => none

def document? : Reader → Option Json
  | finished v => some v
  | _ => none

end Reader

def ofTokens? (tokens : List Token) : Option Json := do
  let reader ← tokens.foldlM Reader.take (.value [])
  reader.document?

/-- The document that a text is; blanks may stand around it and between its tokens. -/
def ofString? (s : String) : Option Json := do
  let tokens ← Token.ofChars? s.toList
  ofTokens? tokens

end Resumable.Json
