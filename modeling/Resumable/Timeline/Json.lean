import Resumable.Effect.Kind
import Resumable.Json.Printer
import Resumable.Json.Reader
import Resumable.Timeline.Format

namespace Resumable

namespace Json

def variant? : Json → Option String
  | text codes => codes.content?
  | object [(key, null)] => key.content?
  | _ => none

def field? (members : List (String × Json)) (name : String) : Option (Option Json) :=
  match members.filter (·.1 = name) with
  | [] => some none
  | [(_, value)] => some (some value)
  | _ => none

def members? : Json → Option (List (String × Json))
  | object members =>
    members.mapM fun (key, value) => key.content?.map fun name => (name, value)
  | _ => none

def word? (j : Json) : Option Nat :=
  j.natural?.filter (· < Nat.pow 2 64)

def optionalText? : Json → Option (Option String)
  | null => some none
  | j => j.content?.map some

end Json

def Status.ofJson? (j : Json) : Option Status :=
  j.variant?.bind Status.ofName?

def StepKind.ofJson? (j : Json) : Option StepKind :=
  j.variant?.bind StepKind.ofName?

def EffectKind.ofJson? (j : Json) : Option EffectKind :=
  j.variant?.bind EffectKind.ofName?

namespace TimelineEntry

def toJson (e : TimelineEntry) : Json :=
  .ofMembers ([("position", .ofNat e.position), ("kind", .ofString e.kind.name)] ++
    (e.value.map fun text => ("value", Json.ofString text)).toList)

def ofFields? (position kind value : Option Json) : Option TimelineEntry := do
  let position ← (← position).word?
  let kind ← StepKind.ofJson? (← kind)
  let value ← Json.optionalText? (value.getD .null)
  pure ⟨position, kind, value⟩

def ofJson? : Json → Option TimelineEntry
  | .array [position, kind] => ofFields? (some position) (some kind) none
  | .array [position, kind, value] => ofFields? (some position) (some kind) (some value)
  | j => do
    let members ← j.members?
    let position ← Json.field? members "position"
    let kind ← Json.field? members "kind"
    let value ← Json.field? members "value"
    ofFields? position kind value

end TimelineEntry

namespace Timeline

def toJson (t : Timeline) : Json :=
  .ofMembers [("status", .ofString t.status.name),
    ("entries", .array (t.entries.map TimelineEntry.toJson))]

def ofFields? (status entries : Option Json) : Option Timeline := do
  let status ← Status.ofJson? (← status)
  match ← entries with
  | .array items => (items.mapM TimelineEntry.ofJson?).map fun entries => ⟨status, entries⟩
  | _ => none

def ofJson? : Json → Option Timeline
  | .array [status, entries] => ofFields? (some status) (some entries)
  | j => do
    let members ← j.members?
    let status ← Json.field? members "status"
    let entries ← Json.field? members "entries"
    ofFields? status entries

/-- Documents over several lines. Reading takes more than is written: fields in any order and
unknown ones between them, records as arrays of their fields, and a name as the only key of an
object that holds nothing under it. -/
def Format.plain : Format where
  library := ⟨fun j => some j.pretty, Json.ofString?⟩
  word := ⟨Json.ofNat, Json.word?⟩
  text := ⟨fun s => s.elim .null Json.ofString, Json.optionalText?⟩
  status := ⟨fun s => .ofString s.name, Status.ofJson?⟩
  kind := ⟨fun k => .ofString k.name, StepKind.ofJson?⟩
  entry := ⟨TimelineEntry.toJson, TimelineEntry.ofJson?⟩
  timeline := ⟨Timeline.toJson, Timeline.ofJson?⟩

def toText (t : Timeline) : String :=
  t.toJson.pretty

@[simp]
theorem textIn_plain (t : Timeline) : t.textIn .plain = some t.toText :=
  rfl

end Timeline

end Resumable
