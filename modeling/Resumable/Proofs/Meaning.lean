import Resumable.Proofs.Silent
import Mathlib.Data.List.Forall2

namespace Resumable

variable {K : Client}

def Effect.keys? {A P C : Type} : Effect A P C → Option (List Value)
  | .await _ keys => keys
  | .compute _ keys => some keys
  | _ => none

inductive Entry.Alike {A : Type} (like : A → A → Prop) : Entry A → Entry A → Prop
  | yielded (v : Value) : Alike like (.yielded v) (.yielded v)
  | view {a b : A} (h : like a b) : Alike like (.view a) (.view b)
  | state (v : Value) : Alike like (.state v) (.state v)

abbrev History.Alike {A : Type} (like : A → A → Prop) : History A → History A → Prop :=
  List.Forall₂ (Entry.Alike like)

inductive Resumption.Alike {A : Type} (like : A → A → Prop) :
    Option (Resumption A) → Option (Resumption A) → Prop
  | nothing : Alike like none none
  | value (v : Value) : Alike like (some (.value v)) (some (.value v))
  | cell (v : Value) (i j : Nat) {h k : History A} (before : History.Alike like h k) :
      Alike like (some (.cell ⟨v, ⟨i, h⟩⟩)) (some (.cell ⟨v, ⟨j, k⟩⟩))

/-- What code of a deterministic client means. -/
structure Meaning (β : Behaviour K) where
  /-- Artifacts that differ at most in the owners of their setters. -/
  artifacts : Setoid K.Artifact
  /-- Procedures that behave alike. -/
  procedures : K.Procedure → K.Procedure → Prop
  computed : K.Computation → Option (Except Failure Value)
  produced : K.Producer → Option (Except Failure Value)
  settled : K.Future → Option (Except Failure Value)

namespace Meaning

variable {β : Behaviour K} (M : Meaning β)

/-- What an effect's computation or producer comes to. -/
def upshot : Effect K.Artifact K.Producer K.Computation → Option (Except Failure Value)
  | .compute computation _ => M.computed computation
  | .await producer _ => M.produced producer
  | _ => none

abbrev EntryAlike : Entry K.Artifact → Entry K.Artifact → Prop :=
  Entry.Alike M.artifacts.r

abbrev HistoryAlike : History K.Artifact → History K.Artifact → Prop :=
  History.Alike M.artifacts.r

/-- Effects alike: of one kind, with the same keys and contents, like artifacts, and computations
or producers that come to the same. -/
inductive EffectAlike : Effect K.Artifact K.Producer K.Computation →
    Effect K.Artifact K.Producer K.Computation → Prop
  | render {a b : K.Artifact} (h : M.artifacts.r a b) : EffectAlike (.render a) (.render b)
  | await {p q : K.Producer} {o : Except Failure Value} (keys : Option (List Value))
      (left : M.produced p = some o) (right : M.produced q = some o) :
      EffectAlike (.await p keys) (.await q keys)
  | hold (v : Value) : EffectAlike (.hold v) (.hold v)
  | compute {c d : K.Computation} {o : Except Failure Value} (keys : List Value)
      (left : M.computed c = some o) (right : M.computed d = some o) :
      EffectAlike (.compute c keys) (.compute d keys)

inductive ResultAlike : Except Payload (K.Procedure × Except Fault K.Yielded) →
    Except Payload (K.Procedure × Except Fault K.Yielded) → Prop
  | panicked (payload payload' : Payload) : ResultAlike (.error payload) (.error payload')
  | failed (p q : K.Procedure) (fault : Fault) :
      ResultAlike (.ok (p, .error fault)) (.ok (q, .error fault))
  | completed (p q : K.Procedure) {a b : K.Artifact} (h : M.artifacts.r a b) :
      ResultAlike (.ok (p, .ok (.complete a))) (.ok (q, .ok (.complete b)))
  | yielded {p q : K.Procedure} {e e' : Effect K.Artifact K.Producer K.Computation}
      (procedures : M.procedures p q) (effects : M.EffectAlike e e') :
      ResultAlike (.ok (p, .ok (.effect e))) (.ok (q, .ok (.effect e')))

/-- What a future has come to when polling it gave `r`, if it is to come to `o`. -/
def Polled (o : Except Failure Value) : Except Payload (Progress K.Future) → Prop
  | .ok (.ready outcome) => outcome.mapError .failed = o
  | .ok (.later future) => M.settled future = some o
  | .ok (.parked _ future) => M.settled future = some o
  | .error payload => .error (.panicked payload) = o

/-- The code does what the meaning says, and asks for nothing meanwhile. -/
structure Sound : Prop where
  resume {p q : K.Procedure} {input input' : Option (Resumption K.Artifact)}
    (procedures : M.procedures p q) (inputs : Resumption.Alike M.artifacts.r input input') :
    ∃ r r', (β.code (.resume p input)).Gives r ∧ (β.code (.resume q input')).Gives r' ∧
      M.ResultAlike r r'
  compute {c : K.Computation} {o : Except Failure Value} (h : M.computed c = some o) :
    (β.code (.compute c)).Only fun r => r.mapError .panicked = o
  produce {p : K.Producer} {o : Except Failure Value} (h : M.produced p = some o) :
    (β.code (.produce p)).Only fun
      | .ok future => M.settled future = some o
      | .error payload => .error (.panicked payload) = o
  poll {f : K.Future} {o : Except Failure Value} (h : M.settled f = some o) :
    (β.code (.poll f)).Only (M.Polled o)

end Meaning

namespace Meaning

variable {β : Behaviour K} {M : Meaning β}

theorem EntryAlike.refl (e : Entry K.Artifact) : M.EntryAlike e e := by
  cases e with
  | yielded v => exact .yielded v
  | view a => exact .view (M.artifacts.refl a)
  | state v => exact .state v

theorem HistoryAlike.refl (h : History K.Artifact) : M.HistoryAlike h h :=
  List.forall₂_same.mpr fun e _ => EntryAlike.refl e

theorem HistoryAlike.push {h k : History K.Artifact} (alike : M.HistoryAlike h k)
    {e f : Entry K.Artifact} (entries : M.EntryAlike e f) :
    M.HistoryAlike (h ++ [e]) (k ++ [f]) :=
  List.rel_append alike (.cons entries .nil)

theorem HistoryAlike.take {h k : History K.Artifact} (alike : M.HistoryAlike h k) (n : Nat) :
    M.HistoryAlike (h.take n) (k.take n) :=
  List.forall₂_take n alike

theorem HistoryAlike.of_push {h k : History K.Artifact} {e f : Entry K.Artifact}
    (alike : M.HistoryAlike (h ++ [e]) (k ++ [f])) : M.HistoryAlike h k ∧ M.EntryAlike e f := by
  have length : h.length = k.length := by simpa using alike.length_eq
  have front := alike.take h.length
  have back := List.forall₂_drop h.length alike
  rw [List.take_left, length, List.take_left] at front
  rw [List.drop_left, length, List.drop_left] at back
  cases back with
  | cons entries _ => exact ⟨front, entries⟩

theorem fed?_alike {h k : History K.Artifact} (alike : M.HistoryAlike h k) (i j : Nat)
    {e f : Entry K.Artifact} (entries : M.EntryAlike e f) :
    Resumption.Alike M.artifacts.r (Resumption.fed? i h e) (Resumption.fed? j k f) := by
  cases entries with
  | yielded v => exact .value v
  | view h => exact .nothing
  | state v => exact .cell v i j alike

theorem next?_alike {h k : History K.Artifact} (alike : M.HistoryAlike h k) (i j : Nat) :
    Resumption.Alike M.artifacts.r (Resumption.next? i h) (Resumption.next? j k) := by
  rcases List.eq_nil_or_concat' h with rfl | ⟨h, e, rfl⟩
  · cases alike
    exact .nothing
  · rcases List.eq_nil_or_concat' k with rfl | ⟨k, f, rfl⟩
    · simpa using alike.length_eq
    · rw [Resumption.next?_push, Resumption.next?_push]
      exact fed?_alike alike.of_push.1 i j alike.of_push.2

end Meaning

end Resumable
