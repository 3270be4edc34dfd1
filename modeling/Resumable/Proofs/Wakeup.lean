import Resumable.Proofs.Finality
import Resumable.Proofs.Interleaving
import Resumable.Proofs.Sketch
import Resumable.Proofs.Visits

namespace Resumable

variable {K : Client} {β : Behaviour K} {s w : Shape} {k : ComponentId} {i : InstanceId} {x : Instance K}
  {lost : Prop}

theorem Registry.Later.first {cut : SubscriptionId → Prop} {r r' : Registry (Observer K)}
    (later : r.Later cut r') (keeps : ∀ n, cut n → (n, .host k) ∉ r.entries)
    (first : ∃ rest, r.entries = (0, .host k) :: rest) :
    ∃ rest, r'.entries = (0, .host k) :: rest := by
  obtain ⟨rest, entries⟩ := first
  cases later with
  | same => exact ⟨rest, entries⟩
  | subscribed o =>
    simp only [Registry.subscribe]
    split
    · exact ⟨rest, entries⟩
    · exact ⟨_, by rw [entries, List.cons_append]⟩
  | @unsubscribed n asked =>
    have other : n ≠ 0 := by
      rintro rfl
      exact keeps 0 asked (entries ▸ List.mem_cons_self ..)
    exact ⟨_, by rw [Registry.unsubscribe, entries, List.filter_cons_of_pos (by simp [other.symm])]⟩

def Control.heralds (i : InstanceId) : Control K s → Bool
  | .emit (.ofInstance j) .ready => j = i
  | _ => false

def Frame.heralds (i : InstanceId) : Frame K s w → Bool
  | suspended control => control.heralds i
  | _ => false

def Control.outside : Control K s → Bool
  | run _ => true
  | call _ => true
  | _ => false

def Frame.outside : Frame K s w → Bool
  | waiting _ => true
  | polling _ => true
  | draining => true
  | suspended control => control.outside
  | _ => false

theorem Control.heralds_of_outside {control : Control K s} (outside : control.outside = true) :
    control.heralds i = false := by
  cases control <;> first | rfl | cases outside

section Turn

variable {loses : Prop} {cut : SubscriptionId → Prop} {memos : MemoId → Memo}
  {o' : Option (Instance K)} {as as' : Multiset Activity} {deed : Option (Deed K.Artifact)}

theorem Turn.reports (turn : Turn loses cut memos (some x) as deed o' as')
    (stands : x.Stands lost as) (keeps : ∀ n, cut n → (n, .host k) ∉ x.registry.entries)
    (reports : x.Reports k) : ∃ x', o' = some x' ∧ x'.Reports k := by
  rcases reports with ended | first
  · obtain ⟨x', found, ended', -⟩ := turn.final stands ended
    exact ⟨x', found, .inl ended'⟩
  · cases turn with
    | stays _ _ _ later => exact ⟨_, rfl, .inr (later.first keeps first)⟩
    | terminated => exact ⟨_, rfl, .inl rfl⟩
    | _ => exact ⟨_, rfl, .inr first⟩

theorem Turn.ready (turn : Turn loses cut memos (some x) as deed o' as')
    (stands : x.Stands lost as) (awake : x.status ≠ .paused)
    (paused : o'.map (·.status) = some .paused) : deed = some (.tell .ready) := by
  cases turn with
  | recorded => rfl
  | computed => rfl
  | settled => rfl
  | stays status => exact absurd (status.symm.trans (Option.some.inj paused)) awake
  | dropped => exact absurd (Option.some.inj paused) awake
  | overtaken => exact absurd (Option.some.inj paused) awake
  | computing => exact absurd (Option.some.inj paused) awake
  | launching => exact absurd (Option.some.inj paused) awake
  | outdated => exact absurd (Option.some.inj paused) awake
  | launched => exact absurd (Option.some.inj paused) awake
  | ignored => exact absurd (Option.some.inj paused) awake
  | replayStarted status => exact absurd status awake
  | replayed => exact absurd (stands.of_locks trivial).1.1 awake
  | replayEnded => exact absurd (stands.of_locks trivial).1.1 awake
  | _ => cases paused

end Turn

namespace Config

variable {c d : Config K} {t : List (Config K × Config K)}

/-- What is presumed of a component: it is there as long as it has an instance, no panic passes a
render of it, and nobody removes its own subscription. -/
structure Attended (k : ComponentId) (c : Config K) : Prop where
  held : ∀ i, c.state.current k = some i → c.state.componentAlive c.stack k = true
  spares : c.Spares k
  keeps : ∀ i n x, c.Cuts i n → c.state.instances[i]? = some x →
    (n, .host k) ∉ x.registry.entries

variable (β) in
/-- The callback of a component has been invoked since its instance became paused last. -/
def Woken (k : ComponentId) (i : InstanceId) (t : List (Config K × Config K)) : Prop :=
  ∃ u p v, t = u ++ p :: v ∧ Follows β p.1 p.2 ∧ p.2.Invokes k ∧ p.2.state.Paused i ∧
    ∀ q ∈ v, q.2.state.Paused i

theorem Woken.snoc (h : Woken β k i t) (paused : d.state.Paused i) :
    Woken β k i (t ++ [(c, d)]) := by
  obtain ⟨u, p, v, rfl, follows, invokes, since, stays⟩ := h
  refine ⟨u, p, v ++ [(c, d)], by simp, follows, invokes, since, fun q mem => ?_⟩
  rcases List.mem_append.mp mem with mem | mem
  · exact stays q mem
  · rw [List.mem_singleton.mp mem]
    exact paused

theorem Woken.now (follows : Follows β c d) (invokes : d.Invokes k) (paused : d.state.Paused i) :
    Woken β k i (t ++ [(c, d)]) :=
  ⟨t, (c, d), [], rfl, follows, invokes, paused, by simp⟩

def heralds (i : InstanceId) (c : Config K) : Bool :=
  c.control.heralds i || c.stack.any (·.heralds i)

theorem of_heralds (front : c.control.heralds i = true) :
    ∃ σ stack, c = ⟨.unit, σ, .emit (.ofInstance i) .ready, stack⟩ := by
  obtain ⟨s, σ, control, stack⟩ := c
  cases control with
  | emit source signal =>
    cases source with
    | free => cases front
    | ofInstance j =>
      cases signal with
      | ready =>
        obtain rfl : j = i := of_decide_eq_true front
        exact ⟨σ, stack, rfl⟩
      | _ => cases front
  | _ => cases front

theorem Switches.alike (switches : c.Switches d) (k : ComponentId) :
    Stack.Alike k d.stack c.stack :=
  ⟨switches.any _ fun _ => rfl, switches.any _ fun _ => rfl, fun _ => switches.any _ fun _ => rfl⟩

theorem Switches.heralds (switches : c.Switches d) : d.heralds i = c.heralds i := by
  cases switches with
  | begins => simp [Config.heralds, Stack.any, Frame.heralds, Control.heralds]
  | turns =>
    simp only [Config.heralds, Stack.any_graft, Stack.any, Frame.heralds]
    ac_rfl
  | ends => simp [Config.heralds, Stack.any, Frame.heralds, Control.heralds]

variable (β) in
/-- A component and its instance along a run. A mark comes with a render; the instance tells the
component; and while it is paused the callback has been invoked, or a render or a fork is still to
look at it, or the signal that it can go on starts on its way. -/
structure Wakes (k : ComponentId) (t : List (Config K × Config K)) (c : Config K) : Prop where
  marked : c.state.marked k = true → c.stack.renders k = true
  reports : ∀ i, c.state.current k = some i ∨ c.stack.adopts k i = true → c.state.Reports k i
  woken : ∀ i, c.state.current k = some i → c.state.Paused i →
    Woken β k i t ∨ c.stack.revisits k = true ∨ c.heralds i = true

theorem emit_of_deed (h : c.deed? i = some (.tell .ready)) :
    ∃ σ stack, c = ⟨.unit, σ, .emit (.ofInstance i) .ready, stack⟩ := by
  obtain ⟨s, σ, control, stack⟩ := c
  cases control with
  | run => cases h
  | advance => cases h
  | call c =>
    cases stack with
    | empty => cases h
    | push frame rest =>
      cases frame with
      | stepping => cases (ownedBy_some_eq_some.mp h).2
      | launching => cases (ownedBy_some_eq_some.mp h).2
      | replaying => cases (ownedBy_some_eq_some.mp h).2
      | _ => cases h
  | emit source signal =>
    cases source with
    | free => cases h
    | ofInstance j =>
      cases signal with
      | ready =>
        obtain ⟨rfl, -⟩ := ownedBy_some_eq_some.mp h
        exact ⟨σ, stack, rfl⟩
      | forked => cases h
      | done => cases (ownedBy_some_eq_some.mp h).2
      | rejected => cases (ownedBy_some_eq_some.mp h).2

theorem ready_invokes {σ : State K} {stack : Stack K .unit} (reports : σ.Reports k i)
    (paused : σ.Paused i) (current : σ.current k = some i)
    (held : σ.componentAlive stack k = true) :
    (Next.deliver σ stack (.ofInstance i) .ready (σ.registry (.ofInstance i)).observers).Holds fun d =>
      d.state.marked k = true ∨ d.Invokes k := by
  obtain ⟨x, found, reports⟩ := reports
  obtain ⟨later, entries⟩ := reports.resolve_left fun ended => by
    rw [State.Paused, found, Option.map_some, ended] at paused
    cases paused
  obtain ⟨y, made, -⟩ := Option.bind_eq_some_iff.mp current
  have observers : (σ.registry (.ofInstance i)).observers = .host k :: later.map (·.2) := by
    simp only [State.registry, found, Option.map_some, Option.getD_some, Registry.observers, entries,
      List.map_cons]
  have held' : σ.componentAlive
      (.push (.emitting (.ofInstance i) (later.map (·.2)) .ready) stack) k = true := held
  rw [observers]
  simp only [Next.deliver, Next.react, held', if_true, Next.requestRender, made]
  split
  · next rendering =>
    refine Next.holds_give.mpr (.inl ?_)
    simp only [State.marked, made, Option.any_some, rendering]
  · exact Next.holds_call.mpr (.inr (.intro σ y made (.hosting k) rfl _))

theorem wakes_start {memory : K.Memory} {ambient : Bool} {code : Code K Unit} :
    Wakes β k [] (start ({ memory := memory, ambient := ambient } : State K) code) :=
  ⟨by rintro ⟨⟩, by rintro i (⟨⟨⟩⟩ | ⟨⟨⟩⟩), by rintro i ⟨⟩⟩

/-- A signal that an instance can go on stays on its way, or the component that it tells of it is marked
or invokes its callback. -/
theorem Follows.heralds (follows : Follows β c d) (reports : c.state.Reports k i)
    (paused : c.state.Paused i) (current : c.state.current k = some i)
    (held : c.state.componentAlive c.stack k = true) (heralds : c.heralds i = true) :
    d.heralds i = true ∨ d.state.marked k = true ∨ d.Invokes k := by
  rcases Bool.or_eq_true _ _ ▸ heralds with front | waits
  · obtain ⟨σ, stack, rfl⟩ := of_heralds front
    exact .inr (ready_invokes reports paused current held d
      (follows.step_eq (by rintro τ result ⟨⟩)))
  · have waits := follows.suspended (·.heralds i) (fun frame h => by cases frame <;> first | rfl | cases h)
      waits
    exact .inl (by rw [Config.heralds, waits, Bool.or_true])

theorem Wakes.follows (wakes : Wakes β k t c) (stands : ∀ i, c.Stands lost i)
    (attended : c.Attended k) (follows : Follows β c d) : Wakes β k (t ++ [(c, d)]) d := by
  have visit := follows_visit attended.spares follows
  have kept : ∀ i, c.state.Reports k i → d.state.Reports k i := by
    intro i reports
    obtain ⟨x, found, reports⟩ := reports
    have turn := follows_turn (stands i).absent follows
    rw [found] at turn
    exact turn.reports ((stands i).present x found)
      (fun n cut => attended.keeps i n x cut found) reports
  have marked : d.state.marked k = true → d.stack.renders k = true := by
    intro mark
    rcases visit.marked mark with before | renders
    · exact (visit.renders (wakes.marked before)).resolve_right (by simp [mark])
    · exact renders
  have revisits : d.state.marked k = true → d.stack.revisits k = true :=
    fun mark => Stack.revisits_of_renders (marked mark)
  refine ⟨marked, ?_, ?_⟩
  · rintro i (current | adopts)
    · rcases visit.current i current with before | ⟨adopted | reports, -⟩
      · exact kept i (wakes.reports i (.inl before))
      · exact kept i (wakes.reports i (.inr adopted))
      · exact reports
    · rcases visit.adopts i adopts with before | reports
      · exact kept i (wakes.reports i (.inr before))
      · exact reports
  · intro i current paused
    rcases visit.current i current with before | ⟨-, placed⟩
    · obtain ⟨x, found, reports⟩ := wakes.reports i (.inl before)
      have turn := follows_turn (stands i).absent follows
      rw [found] at turn
      by_cases was : x.status = .paused
      · have was' : c.state.Paused i := by rw [State.Paused, found, Option.map_some, was]
        rcases wakes.woken i before was' with woken | revisited | heralds
        · exact .inl (woken.snoc paused)
        · rcases visit.revisits revisited with later | mark | invokes
          · exact .inr (.inl later)
          · exact .inr (.inl (revisits mark))
          · exact .inl (.now follows (invokes i current paused) paused)
        · rcases follows.heralds ⟨x, found, reports⟩ was' before (attended.held i before) heralds with
            later | mark | invokes
          · exact .inr (.inr later)
          · exact .inr (.inl (revisits mark))
          · exact .inl (.now follows invokes paused)
      · obtain ⟨σ, stack, rfl⟩ := emit_of_deed (turn.ready ((stands i).present x found) was paused)
        exact .inr (.inr (by simp [Config.heralds, Control.heralds]))
    · exact .inr (.inl placed)

theorem Wakes.interleaves (wakes : Wakes β k t c) (stands : ∀ i, c.Stands lost i)
    (attended : c.Attended k) (interleaves : Interleaves β c d) : Wakes β k (t ++ [(c, d)]) d := by
  cases interleaves with
  | follows follows => exact wakes.follows stands attended follows
  | switches switches =>
    have frames := switches.alike k
    have marked : d.state.marked k = c.state.marked k := by
      rw [State.marked, switches.components, State.marked]
    have current : d.state.current k = c.state.current k := by
      rw [State.current, switches.components, State.current]
    have paused : ∀ i, d.state.Paused i → c.state.Paused i := by
      intro i paused
      rwa [State.Paused, switches.instances] at paused
    refine ⟨fun mark => ?_, fun i placed => ?_, fun i placed rests => ?_⟩
    · rw [frames.renders]
      exact wakes.marked (marked ▸ mark)
    · rw [State.Reports, switches.instances]
      exact wakes.reports i (by rwa [current, frames.adopts i] at placed)
    · rw [frames.revisits, switches.heralds]
      exact (wakes.woken i (current ▸ placed) (paused i rests)).imp_left (·.snoc rests)

theorem Interleaving.wakes {memory : K.Memory} {ambient : Bool} {code : Code K Unit}
    (run : Interleaving β (·.Attended k) (start { memory := memory, ambient := ambient } code) t c) :
    Wakes β k t c := by
  induction run with
  | refl => exact wakes_start
  | snoc run attended interleaves ih => exact ih.interleaves run.stands attended interleaves

end Config

/-- Every operation has returned: each thread is in client code, or lets the tasks be polled. -/
structure Config.Returned (c : Config K) : Prop where
  front : c.control.outside = true
  frames : c.stack.any (!·.outside) = false

theorem Config.Returned.still {c : Config K} (returned : c.Returned) :
    c.stack.revisits k = false ∧ c.heralds i = false := by
  have none : ∀ p : {s w : Shape} → Frame K s w → Bool,
      (∀ {s w : Shape} (frame : Frame K s w), p frame = true → (!frame.outside) = true) →
      c.stack.any p = false :=
    fun p inside => Bool.eq_false_iff.mpr fun some =>
      Bool.eq_false_iff.mp returned.frames (Stack.any_mono inside some)
  refine ⟨none _ fun frame h => ?_, ?_⟩
  · cases frame <;> first | rfl | simp [Frame.revisited?] at h
  · rw [Config.heralds, Control.heralds_of_outside returned.front, Bool.false_or]
    refine none _ fun frame h => ?_
    cases frame with
    | suspended control => cases control <;> first | rfl | cases h
    | _ => cases h

open Config in
/-- Along every run from an empty machine of any number of threads, on which a component is attended
to: whenever every operation has returned and its instance is paused, its callback has been invoked
since that instance became paused last. -/
theorem no_lost_wakeup {memory : K.Memory} {ambient : Bool} {code : Code K Unit}
    {t : List (Config K × Config K)} {c : Config K}
    (run : Interleaving β (·.Attended k) (start { memory := memory, ambient := ambient } code) t c)
    (returned : c.Returned) (current : c.state.current k = some i) (paused : c.state.Paused i) :
    Woken β k i t := by
  obtain ⟨left, silent⟩ := returned.still (k := k) (i := i)
  rcases run.wakes.woken i current paused with woken | revisited | heralds
  · exact woken
  · exact absurd revisited (by simp [left])
  · exact absurd heralds (by simp [silent])

namespace Sketch

def attends (k : ComponentId) (c : Config client) : Bool :=
  ((c.state.current k).isNone || c.state.componentAlive c.stack k) &&
    match c with
    | ⟨_, _, .run (.panic _), _⟩ => false
    | ⟨_, _, .run (.call (.unsubscribe _ _) _), _⟩ => false
    | _ => true

theorem attended_of_attends {k : ComponentId} (c : Config client) (h : attends k c = true) :
    c.Attended k := by
  simp only [attends, Bool.and_eq_true, Bool.or_eq_true] at h
  refine ⟨fun i current => h.1.resolve_left (by simp [current]), ?_, ?_⟩
  · obtain ⟨s, σ, control, stack⟩ := c
    cases control with
    | run code =>
      cases code with
      | panic => cases h.2
      | _ => cases stack <;> trivial
    | _ => cases stack <;> trivial
  · intro i n x cuts
    cases cuts with
    | unsubscribe => cases h.2

def settleCode : Code client Unit :=
  .call (.newComponent (fun _ => { moves := [.hold (.int 1), .await (.int 3) none, .finish] }) () {})
    fun k =>
      .call (.retain (.ofComponent k)) fun _ => .call (.render k (.int 0)) fun _ => .done ()

def settleStart : Config client :=
  .start { memory := (), ambient := true } settleCode

def awaiting : Config client :=
  Config.after behaviour 19 settleStart

def worker : Config client :=
  ⟨.unit, { awaiting.state with ambient := true }, .run (.call .drain fun _ => .done ()),
    .push (.suspended awaiting.control) awaiting.stack⟩

def settled : Config client :=
  ⟨_, { (Config.after behaviour 8 worker).state with ambient := true }, awaiting.control,
    awaiting.stack⟩

def answered : Config client :=
  Config.after behaviour 5 settled

def settledTrail : List (Config client × Config client) :=
  Config.trail behaviour 19 settleStart ++ [(awaiting, worker)] ++ Config.trail behaviour 8 worker ++
    [(Config.after behaviour 8 worker, settled)] ++ Config.trail behaviour 5 settled

/-- The drawing becomes paused while the render is still on the stack, and its request is held back.
When the render has been answered, another one has been asked for. -/
theorem settled_no_lost_wakeup :
    Config.Interleaving behaviour (·.Attended 0) settleStart settledTrail answered ∧
    ¬ awaiting.state.Paused 0 ∧ settled.state.Paused 0 ∧ settled.stack.renders 0 = true ∧
    settled.state.marked 0 = true ∧ answered.state.current 0 = some 0 ∧ answered.state.Paused 0 ∧
    Config.Woken behaviour 0 0 settledTrail := by
  have first : Config.Run behaviour (·.Attended 0) settleStart
      (Config.trail behaviour 19 settleStart) awaiting :=
    .walk attended_of_attends _ _ (by decide +kernel)
  have drains : Config.Run behaviour (·.Attended 0) worker (Config.trail behaviour 8 worker)
      (Config.after behaviour 8 worker) :=
    .walk attended_of_attends _ _ (by decide +kernel)
  have answers : Config.Run behaviour (·.Attended 0) settled (Config.trail behaviour 5 settled)
      answered :=
    .walk attended_of_attends _ _ (by decide +kernel)
  have begun := first.interleaving.snoc (e := worker)
    (attended_of_attends awaiting (by decide +kernel)) (.switches (.begins _ _ _ true _))
  have ended := (begun.append drains.interleaving).snoc (e := settled)
    (attended_of_attends _ (by decide +kernel)) (.switches (.ends _ (.ok ()) _ _ true))
  have run := ended.append answers.interleaving
  exact ⟨run, by rintro ⟨⟩, rfl, rfl, rfl, rfl, rfl, no_lost_wakeup run ⟨rfl, rfl⟩ rfl rfl⟩

end Sketch

end Resumable
