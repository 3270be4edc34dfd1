import Resumable.Proofs.Calls
import Resumable.Proofs.Condition

namespace Resumable

variable {K : Client} {β : Behaviour K} {s w : Shape} {i : InstanceId} {lost : Prop}

namespace Stack

/-- A stack with another one beneath it. -/
def graft : {s : Shape} → Stack K s → Stack K .unit → Stack K s
  | _, empty, below => below
  | _, push frame rest, below => push frame (rest.graft below)

theorem any_graft (p : {s w : Shape} → Frame K s w → Bool) (stack : Stack K s)
    (below : Stack K .unit) : (stack.graft below).any p = (stack.any p || below.any p) := by
  induction stack with
  | empty => rfl
  | push frame rest ih => rw [graft, any, any, ih, Bool.or_assoc]

theorem underWay_graft (stack : Stack K s) (below : Stack K .unit) (as : Multiset Activity) :
    (stack.graft below).underWay i as = stack.underWay i (below.underWay i as) := by
  induction stack with
  | empty => rfl
  | push frame rest ih => rw [graft, underWay, underWay, ih]

theorem underWay_comm (stack : Stack K s) (other : Stack K w) (as : Multiset Activity) :
    stack.underWay i (other.underWay i as) = other.underWay i (stack.underWay i as) := by
  induction stack with
  | empty => rfl
  | push frame rest ih => rw [underWay, ih, underWay, underWay_also]

theorem Rests.any {base : Stack K w} {stack : Stack K s} (rests : base.Rests stack)
    {p : {s w : Shape} → Frame K s w → Bool} (below : base.any p = true) : stack.any p = true := by
  induction rests with
  | refl => exact below
  | push _ frame ih => rw [Stack.any, ih, Bool.or_true]

end Stack

namespace Config

/-- Another thread comes to the front, and nothing else happens: client code starts on a thread of its
own, a thread that waits goes on while the one in front waits in its place, or one goes on when the one
in front has ended. Whether there is a runtime around it belongs to each thread. -/
inductive Switches : Config K → Config K → Prop
  | begins {s : Shape} (σ : State K) (control : Control K s) (stack : Stack K s) (ambient : Bool)
    (code : Code K Unit) :
    Switches ⟨s, σ, control, stack⟩
      ⟨.unit, { σ with ambient := ambient }, .run code, .push (.suspended control) stack⟩
  | turns {s w : Shape} (σ : State K) (control : Control K s) (own : Stack K s)
    (control' : Control K w) (rest : Stack K w) (ambient : Bool) :
    Switches ⟨s, σ, control, own.graft (.push (.suspended control') rest)⟩
      ⟨w, { σ with ambient := ambient }, control', rest.graft (.push (.suspended control) own)⟩
  | ends {s : Shape} (σ : State K) (result : Except Payload Unit) (control : Control K s)
    (stack : Stack K s) (ambient : Bool) :
    Switches ⟨.unit, σ, .run (.ended result), .push (.suspended control) stack⟩
      ⟨s, { σ with ambient := ambient }, control, stack⟩

variable (β) in
/-- The configurations that follow one when several threads use the machine. A thread that has to wait
for a lock has no step, and another one can come to the front. -/
inductive Interleaves : Config K → Config K → Prop
  | follows {c d : Config K} (follows : Follows β c d) : Interleaves c d
  | switches {c d : Config K} (switches : c.Switches d) : Interleaves c d

variable (β) in
/-- Runs of several threads, with the pairs of configurations that followed one another. -/
inductive Interleaving (G : Config K → Prop) (c : Config K) :
    List (Config K × Config K) → Config K → Prop
  | refl : Interleaving G c [] c
  | snoc {t : List (Config K × Config K)} {d e : Config K} (run : Interleaving G c t d) (guard : G d)
      (interleaves : Interleaves β d e) : Interleaving G c (t ++ [(d, e)]) e

variable {c d e : Config K} {t u : List (Config K × Config K)} {G : Config K → Prop}

theorem Run.interleaving (run : Run β G c t d) : Interleaving β G c t d := by
  induction run with
  | refl => exact .refl
  | snoc _ guard follows ih => exact ih.snoc guard (.follows follows)

theorem Interleaving.append (first : Interleaving β G c t d) (second : Interleaving β G d u e) :
    Interleaving β G c (t ++ u) e := by
  induction second with
  | refl => simpa using first
  | snoc _ guard interleaves ih => simpa [List.append_assoc] using ih.snoc guard interleaves

theorem Switches.instances (switches : c.Switches d) : d.state.instances = c.state.instances := by
  cases switches <;> rfl

theorem Switches.components (switches : c.Switches d) :
    d.state.components = c.state.components := by
  cases switches <;> rfl

theorem Switches.any (switches : c.Switches d) (p : {s w : Shape} → Frame K s w → Bool)
    (waits : ∀ {s : Shape} (control : Control K s), p (.suspended control) = false) :
    d.stack.any p = c.stack.any p := by
  cases switches with
  | begins => rw [Stack.any, waits, Bool.false_or]
  | turns => simp only [Stack.any_graft, Stack.any, waits, Bool.false_or, Bool.or_comm]
  | ends => rw [Stack.any, waits, Bool.false_or]

theorem Switches.underWay (switches : c.Switches d) : d.underWay i = c.underWay i := by
  cases switches with
  | begins => rfl
  | turns σ control own control' rest =>
    change (rest.graft _).underWay i (σ.underWay i) = (own.graft _).underWay i (σ.underWay i)
    rw [Stack.underWay_graft, Stack.underWay_graft]
    exact Stack.underWay_comm rest own _
  | ends => rfl

theorem Follows.suspended (follows : Follows β c d) (p : {s w : Shape} → Frame K s w → Bool)
    (waits : ∀ {s w : Shape} (frame : Frame K s w), p frame = true → frame.ofThread = true)
    (some : c.stack.any p = true) : d.stack.any p = true := by
  have below : ∀ {s w : Shape} {frame : Frame K s w} {rest : Stack K w}, frame.ofThread = false →
      (Stack.push frame rest).any p = true → rest.any p = true := by
    intro s w frame rest own some
    refine (Bool.or_eq_true _ _ ▸ some).resolve_left fun h => ?_
    exact Bool.false_ne_true (own.symm.trans (waits frame h))
  cases follows_transit follows with
  | entered => exact some
  | read => exact some
  | wrote => exact some
  | answered => exact below rfl some
  | dropped σ payload frame rest own => exact below own some
  | acted beneath passage =>
    refine passage.stack.rests.any ?_
    cases beneath with
    | same => exact some
    | asked => rw [Stack.any, some, Bool.or_true]
    | left σ _ rest _ _ own => exact below own some
    | mounted => exact below rfl some
    | built => rw [Stack.any, below rfl some, Bool.or_true]
    | adopted => exact below rfl some
    | told => rw [Stack.any, some, Bool.or_true]
    | passed => rw [Stack.any, below rfl some, Bool.or_true]

theorem Stands.interleaves (h : c.Stands lost i) (may : c.Loses i → lost)
    (interleaves : Interleaves β c d) : d.Stands lost i := by
  cases interleaves with
  | follows follows => exact h.follows may follows
  | switches switches =>
    have instances := switches.instances
    exact ⟨fun absent => switches.underWay.trans (h.absent (instances ▸ absent)),
      fun x found => switches.underWay.symm ▸ h.present x (instances ▸ found)⟩

theorem Interleaving.stands {memory : K.Memory} {ambient : Bool} {code : Code K Unit}
    (run : Interleaving β G (start { memory := memory, ambient := ambient } code) t c)
    (i : InstanceId) : c.Stands True i := by
  induction run with
  | refl => exact stands_start
  | snoc _ _ interleaves ih => exact ih.interleaves (fun _ => trivial) interleaves

end Config

end Resumable
