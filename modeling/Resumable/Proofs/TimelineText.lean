import Resumable.Proofs.Documents
import Resumable.Timeline.Json

namespace Resumable

namespace Json

section Naturals

variable (n : Nat)

theorem isDigit_toDigits : (Nat.toDigits 10 n).all Char.isDigit = true :=
  List.all_eq_true.mpr fun _ mem => Nat.isDigit_of_mem_toDigits (by decide) (by decide) mem

theorem head_toDigits {n : Nat} (positive : 0 < n) : (Nat.toDigits 10 n).head? ≠ some '0' := by
  induction n using Nat.strongRecOn with
  | ind n ih =>
    rw [Nat.toDigits_eq_if (by decide)]
    split
    · simpa using Nat.ne_of_gt positive
    · have first := ih (n / 10) (by omega) (by omega)
      obtain ⟨c, cs, written⟩ := List.exists_cons_of_ne_nil (Nat.toDigits_ne_nil (n := n / 10))
      rw [written] at first ⊢
      exact first

theorem isNumber_toDigits : Token.isNumber (Nat.toDigits 10 n) = true := by
  obtain rfl | positive := Nat.eq_zero_or_pos n
  · rfl
  · have digits := isDigit_toDigits n
    have front := head_toDigits positive
    cases written : Nat.toDigits 10 n with
    | nil => exact absurd written Nat.toDigits_ne_nil
    | cons c cs =>
      rw [written] at digits front
      obtain ⟨first, others⟩ : c.isDigit = true ∧ cs.all Char.isDigit = true := by
        simpa using digits
      have rest : cs.dropWhile Char.isDigit = [] := by
        simpa [List.dropWhile_eq_nil_iff] using others
      have minus : c ≠ '-' := by
        rintro rfl
        cases first
      have zero : c ≠ '0' := by simpa using front
      rw [Token.isNumber_of_ne minus]
      unfold Token.isUnsigned
      split
      · rename_i same
        exact absurd (List.head_eq_of_cons_eq same) zero
      · rename_i same
        cases same
        rw [first, rest]
        rfl
      · rename_i same
        cases same

@[simp]
theorem natural?_ofNat : (ofNat n).natural? = some n := by
  have read := Nat.ofDigitChars_ten_toDigits (n := n)
  rw [Nat.ofDigitChars_eq_foldl] at read
  simp only [ofNat, natural?]
  rw [if_pos (isDigit_toDigits n), read]

@[simp]
theorem word?_ofNat : (ofNat n).word? = if n < UInt64.size then some n else none := by
  rw [word?, natural?_ofNat]
  simp [Option.filter, UInt64.size]

theorem proper_ofNat : (ofNat n).Proper :=
  .number (isNumber_toDigits n)

end Naturals

variable {members : List (String × Json)}

theorem proper_ofString (s : String) : (ofString s).Proper :=
  .text (CodePoints.plain_ofString s)

theorem proper_ofMembers (distinct : (members.map Prod.fst).Nodup)
    (all : ∀ member ∈ members, member.2.Proper) : (ofMembers members).Proper := by
  refine .object (fun member mem => ?_) ?_ fun member mem => ?_
  · obtain ⟨original, -, rfl⟩ := List.mem_map.mp mem
    exact CodePoints.plain_ofString _
  · refine List.pairwise_map.mpr (List.pairwise_map.mpr ?_)
    exact (List.pairwise_map.mp distinct).imp fun other same =>
      other (CodePoints.ofString_injective same)
  · obtain ⟨original, known, rfl⟩ := List.mem_map.mp mem
    exact all original known

@[simp]
theorem members?_ofMembers (members : List (String × Json)) :
    (ofMembers members).members? = some members := by
  simp only [ofMembers, members?]
  induction members with
  | nil => rfl
  | cons member members ih => simp [ih]

theorem field?_of_distinct (distinct : (members.map Prod.fst).Nodup) (name : String) :
    field? members name = some (members.lookup name) := by
  induction members with
  | nil => rfl
  | cons member members ih =>
    obtain ⟨absent, others⟩ := List.nodup_cons.mp distinct
    obtain ⟨key, value⟩ := member
    by_cases same : key = name
    · subst same
      have none_left : members.filter (·.1 = key) = [] := by
        refine List.filter_eq_nil_iff.mpr fun other mem found => absent ?_
        exact List.mem_map.mpr ⟨other, mem, by simpa using found⟩
      simp [field?, none_left]
    · have later := ih others
      simp only [field?] at later ⊢
      simp [same, later, List.lookup_cons, beq_false_of_ne (Ne.symm same)]

end Json

@[simp]
theorem Json.optionalText?_ofString (s : String) : (ofString s).optionalText? = some (some s) := by
  simp [ofString, optionalText?, content?]

theorem Status.ofJson?_ofString (name : String) (s : Status) :
    ofJson? (.ofString name) = some s ↔ s.name = name := by
  have read : ofJson? (.ofString name) = ofName? name := by
    simp [ofJson?, Json.variant?, Json.ofString]
  rw [read]
  refine ⟨fun found => ?_, fun same => same ▸ ofName?_name s⟩
  simpa using List.find?_some found

theorem StepKind.ofJson?_ofString (name : String) (k : StepKind) :
    ofJson? (.ofString name) = some k ↔ k.name = name := by
  have read : ofJson? (.ofString name) = ofName? name := by
    simp [ofJson?, Json.variant?, Json.ofString]
  rw [read]
  refine ⟨fun found => ?_, fun same => same ▸ ofName?_name k⟩
  simpa using List.find?_some found

theorem TimelineEntry.ofJson?_ofMembers (members : List (String × Json)) :
    ofJson? (.ofMembers members) =
      (Json.field? members "position").bind fun position =>
        (Json.field? members "kind").bind fun kind =>
          (Json.field? members "value").bind fun value => ofFields? position kind value := by
  change (Json.ofMembers members).members?.bind _ = _
  rw [Json.members?_ofMembers]
  rfl

theorem Timeline.ofJson?_ofMembers (members : List (String × Json)) :
    ofJson? (.ofMembers members) =
      (Json.field? members "status").bind fun status =>
        (Json.field? members "entries").bind fun entries => ofFields? status entries := by
  change (Json.ofMembers members).members?.bind _ = _
  rw [Json.members?_ofMembers]
  rfl

namespace Timeline.Format

section Documented

variable {F : Format} (documented : F.Documented)

include documented

theorem Documented.kind_read (k : StepKind) : F.kind.read (F.kind.write k) = some k := by
  rw [documented.kind.writes]
  exact (documented.kind.reads _ k).mpr rfl

theorem Documented.status_read (s : Status) : F.status.read (F.status.write s) = some s := by
  rw [documented.status.writes]
  exact (documented.status.reads _ s).mpr rfl

theorem Documented.word_read (n : Nat) :
    F.word.read (F.word.write n) = if n < UInt64.size then some n else none := by
  rw [documented.word.writes, documented.word.reads]

theorem Documented.entry_read (e : TimelineEntry) :
    F.entry.read (F.entry.write e) = if e.position < UInt64.size then some e else none := by
  obtain ⟨position, kind, value⟩ := e
  rw [documented.entry.writes]
  cases value with
  | none =>
    rw [if_pos rfl, documented.entry.reads _ (by simp)]
    by_cases word : position < UInt64.size <;>
      simp [List.lookup_cons, documented.word_read, documented.kind_read, word]
  | some text =>
    rw [if_neg (by simp), documented.entry.reads _ (by simp)]
    have read := documented.text.reads text
    by_cases word : position < UInt64.size <;>
      simp [List.lookup_cons, documented.word_read, documented.kind_read, documented.text.writes, word,
        read]

theorem Documented.entries_read (entries : List TimelineEntry) :
    (entries.map F.entry.write).mapM F.entry.read =
      if ∀ e ∈ entries, e.position < UInt64.size then some entries else none := by
  induction entries with
  | nil => rfl
  | cons e entries ih =>
    rw [List.map_cons, List.mapM_cons, ih, documented.entry_read]
    by_cases word : e.position < UInt64.size <;>
      by_cases words : ∀ e ∈ entries, e.position < UInt64.size <;>
        simp +contextual [word, words]

theorem Documented.timeline_read (t : Timeline) :
    F.timeline.read (F.timeline.write t) =
      if ∀ e ∈ t.entries, e.position < UInt64.size then some t else none := by
  rw [documented.timeline.writes, documented.timeline.reads _ (by simp)]
  by_cases words : ∀ e ∈ t.entries, e.position < UInt64.size <;>
    simp +contextual [-List.mapM_map, List.lookup_cons, documented.status_read, documented.entries_read,
      words]

theorem Documented.proper_entry (e : TimelineEntry) : (F.entry.write e).Proper := by
  have position : (F.word.write e.position).Proper := by
    rw [documented.word.writes]
    exact Json.proper_ofNat _
  have kind : (F.kind.write e.kind).Proper := by
    rw [documented.kind.writes]
    exact Json.proper_ofString _
  have value : (F.text.write e.value).Proper := by
    cases e.value with
    | none => exact documented.text.writes_none ▸ .null
    | some text => exact documented.text.writes text ▸ Json.proper_ofString text
  rw [documented.entry.writes]
  split
  · exact Json.proper_ofMembers (by simp) (by simp [position, kind])
  · exact Json.proper_ofMembers (by simp) (by simp [position, kind, value])

theorem Documented.proper_timeline (t : Timeline) : (F.timeline.write t).Proper := by
  have status : (F.status.write t.status).Proper := by
    rw [documented.status.writes]
    exact Json.proper_ofString _
  have entries : (Json.array (t.entries.map F.entry.write)).Proper := by
    refine .array fun item mem => ?_
    obtain ⟨e, -, rfl⟩ := List.mem_map.mp mem
    exact documented.proper_entry e
  rw [documented.timeline.writes]
  exact Json.proper_ofMembers (by simp) (by simp [status, entries])

theorem Documented.text_read {α : Type} (c : Codec α) {j : Json} (proper : j.Proper) :
    (F.library.print j).bind (F.ofText? c) = c.read j := by
  obtain ⟨text, printed⟩ := documented.library.prints proper
  rw [printed, Option.bind_some, ofText?, documented.library.parses proper printed,
    Option.bind_some]

end Documented

theorem plain_documented : plain.Documented where
  library :=
    { prints := fun {j} _ => ⟨j.pretty, rfl⟩
      parses := by
        rintro j text proper ⟨⟩
        exact proper.read_back }
  word := ⟨fun _ => rfl, Json.word?_ofNat⟩
  text := ⟨fun _ => rfl, rfl, Json.optionalText?_ofString, rfl⟩
  status := ⟨fun _ => rfl, Status.ofJson?_ofString⟩
  kind := ⟨fun _ => rfl, StepKind.ofJson?_ofString⟩
  entry :=
    { writes := by
        rintro ⟨position, kind, value⟩
        cases value <;> rfl
      reads := fun members distinct => by
        change TimelineEntry.ofJson? (.ofMembers members) = _
        rw [TimelineEntry.ofJson?_ofMembers]
        simp only [Json.field?_of_distinct distinct, Option.bind_some, TimelineEntry.ofFields?]
        cases members.lookup "position" <;> cases members.lookup "kind" <;>
          cases members.lookup "value" <;> simp [plain, Json.optionalText?] }
  timeline :=
    { writes := fun _ => rfl
      reads := fun members distinct => by
        change Timeline.ofJson? (.ofMembers members) = _
        rw [Timeline.ofJson?_ofMembers]
        simp only [Json.field?_of_distinct distinct, Option.bind_some, Timeline.ofFields?]
        cases members.lookup "status" <;> cases members.lookup "entries" with
        | none => simp [plain]
        | some entries => cases entries <;> simp [plain, Option.map_eq_bind, Function.comp_def] }

end Timeline.Format

namespace Timeline

section History

variable {A : Type} (h : History A) (status : Status)

variable {h} in
theorem getElem?_ofHistory {n : Nat} {e : Entry A} (there : h[n]? = some e) :
    (ofHistory h status).entries[n]? = some (.ofEntry n e) := by
  simp [ofHistory, there]

theorem countP_ofEntry (first : Nat) :
    (h.mapIdx fun n => TimelineEntry.ofEntry (first + n)).countP (·.kind = .view) =
      h.countP (·.view?.isSome) := by
  induction h generalizing first with
  | nil => rfl
  | cons e h ih =>
    have later := ih (first + 1)
    simp only [Nat.add_assoc, Nat.add_comm 1] at later
    rw [List.mapIdx_cons, List.countP_cons, List.countP_cons, later]
    cases e <;> rfl

theorem views_ofHistory : (ofHistory h status).views = h.countP (·.view?.isSome) := by
  simpa [views, ofHistory] using countP_ofEntry h 0

end History

end Timeline

/-- A timeline tells a history one by one: each entry with its position, its kind and the text of
its value, which views do not have. -/
structure Timeline.Tells {A : Type} (t : Timeline) (h : History A) (status : Status) : Prop where
  status : t.status = status
  length : t.entries.length = h.length
  yielded {n : Nat} {v : Value} (there : h[n]? = some (.yielded v)) :
    t.entries[n]? = some ⟨n, .yielded, some v.display⟩
  view {n : Nat} {artifact : A} (there : h[n]? = some (.view artifact)) :
    t.entries[n]? = some ⟨n, .view, none⟩
  state {n : Nat} {v : Value} (there : h[n]? = some (.state v)) :
    t.entries[n]? = some ⟨n, .state, some v.display⟩
  views : t.views = h.countP (·.view?.isSome)

/-- From their texts timelines and single entries are read back as they are, as long as positions
are words. -/
structure Timeline.Format.ReadsBack (F : Format) : Prop where
  timeline (t : Timeline) : (t.textIn F).bind (F.ofText? F.timeline) = some t ↔
    ∀ e ∈ t.entries, e.position < UInt64.size
  entry (e : TimelineEntry) : (F.library.print (F.entry.write e)).bind (F.ofText? F.entry) = some e ↔
    e.position < UInt64.size

theorem Timeline.tells_ofHistory {A : Type} (h : History A) (status : Status) :
    (ofHistory h status).Tells h status where
  status := rfl
  length := length_ofHistory h status
  yielded := getElem?_ofHistory status
  view := getElem?_ofHistory status
  state := getElem?_ofHistory status
  views := views_ofHistory h status

theorem Timeline.Format.Documented.readsBack {F : Format} (documented : F.Documented) :
    F.ReadsBack where
  timeline t := by
    rw [textIn, documented.text_read _ (documented.proper_timeline t), documented.timeline_read]
    simp only [Option.ite_none_right_eq_some, and_true]
  entry e := by
    rw [documented.text_read _ (documented.proper_entry e), documented.entry_read]
    simp only [Option.ite_none_right_eq_some, and_true]

/-- The timeline of a history tells the history, and is read back from its text by every format that
prints, parses and derives as documented. -/
theorem timeline_read_back {F : Timeline.Format} (documented : F.Documented) :
    (∀ {A : Type} (h : History A) (status : Status), (Timeline.ofHistory h status).Tells h status) ∧
    F.ReadsBack :=
  ⟨Timeline.tells_ofHistory, documented.readsBack⟩

namespace Sketch

def awkward : String :=
  "\"\\\x07\né𝄞"

def lastEntry : TimelineEntry :=
  ⟨UInt64.size - 1, .state, some awkward⟩

def awkwardHistory : History Unit :=
  [.view (), .yielded (.str awkward), .state (.str awkward)]

def lastTimeline : Timeline :=
  ⟨.terminated, [⟨7, .view, none⟩, lastEntry]⟩

theorem awkward_read_back :
    Timeline.Format.plain.Documented ∧
    (Timeline.ofHistory awkwardHistory .running).views = 1 ∧
    (Timeline.ofHistory awkwardHistory .running).entries[0]? = some ⟨0, .view, none⟩ ∧
    (Timeline.ofHistory awkwardHistory .running).entries[1]? =
      some ⟨1, .yielded, some (Value.str awkward).display⟩ ∧
    (Timeline.ofHistory awkwardHistory .running).entries[2]? =
      some ⟨2, .state, some (Value.str awkward).display⟩ ∧
    (some lastTimeline.toText).bind (Timeline.Format.plain.ofText? Timeline.Format.plain.timeline) =
      some lastTimeline ∧
    (some lastEntry.toJson.pretty).bind (Timeline.Format.plain.ofText? Timeline.Format.plain.entry) =
      some lastEntry := by
  obtain ⟨told, read⟩ := timeline_read_back Timeline.Format.plain_documented
  have tells := told awkwardHistory .running
  have timeline := (read.timeline lastTimeline).mpr (by decide)
  have entry := (read.entry lastEntry).mpr (by decide)
  exact ⟨Timeline.Format.plain_documented, tells.views, tells.view rfl, tells.yielded rfl,
    tells.state rfl, timeline, entry⟩

end Sketch

end Resumable
