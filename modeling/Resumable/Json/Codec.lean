import Resumable.Json.Token

namespace Resumable

def CodePoints.Plain (codes : CodePoints) : Prop :=
  ∀ code ∈ codes, ∃ c : Char, c.toNat = code

namespace Json

/-- Documents that have a text: numbers are numbers, texts and keys are strings, and no key of an
object stands twice. -/
inductive Proper : Json → Prop
  | null : Proper .null
  | bool (b : Bool) : Proper (.bool b)
  | number {digits : List Char} (valid : Token.isNumber digits = true) : Proper (.number digits)
  | text {codes : CodePoints} (plain : codes.Plain) : Proper (.text codes)
  | array {items : List Json} (all : ∀ item ∈ items, item.Proper) : Proper (.array items)
  | object {members : List (CodePoints × Json)} (keys : ∀ member ∈ members, member.1.Plain)
      (distinct : (members.map Prod.fst).Nodup) (values : ∀ member ∈ members, member.2.Proper) :
      Proper (.object members)

/-- What writes documents as texts and finds the documents of texts. Either can fail. -/
structure Library where
  print : Json → Option String
  parse : String → Option Json

structure Library.Documented (L : Library) : Prop where
  prints {j : Json} (proper : j.Proper) : ∃ text, L.print j = some text
  parses {j : Json} {text : String} (proper : j.Proper) (printed : L.print j = some text) :
    L.parse text = some j

end Json

/-- How the values of a type are written into documents and read out of them. -/
structure Codec (α : Type) where
  write : α → Json
  read : Json → Option α

namespace Codec

/-- Numbers are written in decimal digits, and read unless they need more than 64 bits. -/
structure OfWords (c : Codec Nat) : Prop where
  writes (n : Nat) : c.write n = .ofNat n
  reads (n : Nat) : c.read (.ofNat n) = if n < UInt64.size then some n else none

/-- An absent text is null. -/
structure OfOptionalTexts (c : Codec (Option String)) : Prop where
  writes (s : String) : c.write (some s) = .ofString s
  writes_none : c.write none = .null
  reads (s : String) : c.read (.ofString s) = some (some s)
  reads_null : c.read .null = some none

/-- Variants without fields are written as their names, and what is no name is not read. -/
structure OfVariants {α : Type} (c : Codec α) (name : α → String) : Prop where
  writes (a : α) : c.write a = .ofString (name a)
  reads (s : String) (a : α) : c.read (.ofString s) = some a ↔ name a = s

end Codec

end Resumable
