import Resumable.Json.Codec
import Resumable.Timeline.Basic

namespace Resumable

/-- What timelines need to become texts: a library for documents, and codecs for a timeline and for
all that stands in one. -/
structure Timeline.Format where
  library : Json.Library
  word : Codec Nat
  text : Codec (Option String)
  status : Codec Status
  kind : Codec StepKind
  entry : Codec TimelineEntry
  timeline : Codec Timeline

namespace Timeline

def textIn (F : Format) (t : Timeline) : Option String :=
  F.library.print (F.timeline.write t)

namespace Format

variable (F : Format)

def ofText? {α : Type} (c : Codec α) (text : String) : Option α :=
  (F.library.parse text).bind c.read

/-- An entry is an object of its fields, without a value that is absent. It is read from the fields
of an object, whatever else the object holds; only the value may be missing. -/
structure DerivesEntry : Prop where
  writes (e : TimelineEntry) : F.entry.write e =
    .ofMembers (("position", F.word.write e.position) :: ("kind", F.kind.write e.kind) ::
      if e.value = none then [] else [("value", F.text.write e.value)])
  reads (members : List (String × Json)) (distinct : (members.map Prod.fst).Nodup) :
    F.entry.read (.ofMembers members) = do
      let position ← (members.lookup "position").bind F.word.read
      let kind ← (members.lookup "kind").bind F.kind.read
      let value ← (members.lookup "value").elim (some none) F.text.read
      pure ⟨position, kind, value⟩

/-- A timeline is an object of its status and the array of its entries. -/
structure DerivesTimeline : Prop where
  writes (t : Timeline) : F.timeline.write t =
    .ofMembers [("status", F.status.write t.status), ("entries", .array (t.entries.map F.entry.write))]
  reads (members : List (String × Json)) (distinct : (members.map Prod.fst).Nodup) :
    F.timeline.read (.ofMembers members) = do
      let status ← (members.lookup "status").bind F.status.read
      let entries ← (members.lookup "entries").bind fun
        | .array items => items.mapM F.entry.read
        | _ => none
      pure ⟨status, entries⟩

structure Documented : Prop where
  library : F.library.Documented
  word : F.word.OfWords
  text : F.text.OfOptionalTexts
  status : F.status.OfVariants Status.name
  kind : F.kind.OfVariants StepKind.name
  entry : F.DerivesEntry
  timeline : F.DerivesTimeline

end Format

end Timeline

end Resumable
