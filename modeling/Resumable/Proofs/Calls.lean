import Resumable.Proofs.Silent
import Resumable.Proofs.Transit

namespace Resumable

variable {K : Client} {β : Behaviour K} {s u w : Shape} {α : Type}

namespace Code

/-- What may be left of code when it goes on: any memory may be read, any answer given, and a request
may pass on a panic. -/
inductive Leaves (code : Code K α) : Code K α → Prop
  | self : Leaves code code
  | read {next : K.Memory → Code K α} (left : Leaves code (.read next)) (memory : K.Memory) :
    Leaves code (next memory)
  | wrote {memory : K.Memory} {next : Code K α} (left : Leaves code (.write memory next)) :
    Leaves code next
  | answered {s : Shape} {request : Request K s} {next : s.Answer K → Code K α}
    (left : Leaves code (.call request next)) (answer : s.Answer K) : Leaves code (next answer)
  | panicked {s : Shape} {request : Request K s} {next : s.Answer K → Code K α}
    (left : Leaves code (.call request next)) (payload : Payload) : Leaves code (.panic payload)

inductive LeavesBy (allowed : Code K α → Prop) (code : Code K α) : Code K α → Prop
  | self : LeavesBy allowed code code
  | read {next : K.Memory → Code K α} (left : LeavesBy allowed code (.read next))
    (memory : K.Memory) : LeavesBy allowed code (next memory)
  | wrote {memory : K.Memory} {next : Code K α} (left : LeavesBy allowed code (.write memory next)) :
    LeavesBy allowed code next
  | answered {s : Shape} {request : Request K s} {next : s.Answer K → Code K α}
    (left : LeavesBy allowed code (.call request next)) (may : allowed (.call request next))
    (answer : s.Answer K) : LeavesBy allowed code (next answer)
  | panicked {s : Shape} {request : Request K s} {next : s.Answer K → Code K α}
    (left : LeavesBy allowed code (.call request next)) (may : allowed (.call request next))
    (payload : Payload) : LeavesBy allowed code (.panic payload)

theorem LeavesBy.leaves {allowed : Code K α → Prop} {code rest : Code K α}
    (left : code.LeavesBy allowed rest) : code.Leaves rest := by
  induction left with
  | self => exact .self
  | read _ memory ih => exact ih.read memory
  | wrote _ ih => exact ih.wrote
  | answered _ _ answer ih => exact ih.answered answer
  | panicked _ _ payload ih => exact ih.panicked payload

theorem LeavesBy.imp {allowed allowed' : Code K α → Prop} {code rest : Code K α}
    (left : code.LeavesBy allowed rest) (imp : ∀ code, allowed code → allowed' code) :
    code.LeavesBy allowed' rest := by
  induction left with
  | self => exact .self
  | read _ memory ih => exact ih.read memory
  | wrote _ ih => exact ih.wrote
  | answered _ may answer ih => exact ih.answered (imp _ may) answer
  | panicked _ may payload ih => exact ih.panicked (imp _ may) payload

theorem Leaves.of_bind {γ : Type} {code : Code K α} {f : α → γ} {rest : Code K γ}
    (left : (code.bind fun a => .done (f a)).Leaves rest) :
    ∃ before, code.Leaves before ∧ rest = before.bind fun a => .done (f a) := by
  induction left with
  | self => exact ⟨code, .self, rfl⟩
  | read _ memory ih =>
    obtain ⟨before, left, same⟩ := ih
    cases before with
    | read next =>
      cases same
      exact ⟨_, left.read memory, rfl⟩
    | _ => cases same
  | wrote _ ih =>
    obtain ⟨before, left, same⟩ := ih
    cases before with
    | write memory next =>
      cases same
      exact ⟨_, left.wrote, rfl⟩
    | _ => cases same
  | answered _ answer ih =>
    obtain ⟨before, left, same⟩ := ih
    cases before with
    | call request next =>
      cases same
      exact ⟨_, left.answered answer, rfl⟩
    | _ => cases same
  | panicked _ payload ih =>
    obtain ⟨before, left, same⟩ := ih
    cases before with
    | call request next =>
      cases same
      exact ⟨_, left.panicked payload, rfl⟩
    | _ => cases same

theorem Leaves.done_of_bind {γ : Type} {code : Code K α} {f : α → γ} {answer : γ}
    (left : (code.bind fun a => .done (f a)).Leaves (.done answer)) :
    ∃ a, code.Leaves (.done a) ∧ answer = f a := by
  obtain ⟨before, left', same⟩ := left.of_bind
  cases before with
  | done a =>
    cases same
    exact ⟨a, left', rfl⟩
  | _ => cases same

theorem Leaves.of_ended {a : α} {rest : Code K α} (left : (.done a : Code K α).Leaves rest) :
    rest = .done a := by
  induction left with
  | self => rfl
  | read _ _ ih => cases ih
  | wrote _ ih => cases ih
  | answered _ _ ih => cases ih
  | panicked _ _ ih => cases ih

theorem Leaves.of_done {a b : α} (left : (.done a : Code K α).Leaves (.done b)) : b = a := by
  cases left.of_ended
  rfl

theorem Leaves.of_request {request : Request K s} {a b : α}
    (left : (.call request fun _ => .done a : Code K α).Leaves (.done b)) : b = a := by
  have ends : ∀ rest : Code K α, (.call request fun _ => .done a : Code K α).Leaves rest →
      rest = (.call request fun _ => .done a) ∨ rest = .done a ∨
        ∃ payload, rest = .panic payload := by
    intro rest left
    induction left with
    | self => exact .inl rfl
    | read _ _ ih => obtain ⟨⟨⟩⟩ | ⟨⟨⟩⟩ | ⟨payload, ⟨⟩⟩ := ih
    | wrote _ ih => obtain ⟨⟨⟩⟩ | ⟨⟨⟩⟩ | ⟨payload, ⟨⟩⟩ := ih
    | answered _ _ ih =>
      obtain ⟨⟨⟩⟩ | ⟨⟨⟩⟩ | ⟨payload, ⟨⟩⟩ := ih
      exact .inr (.inl rfl)
    | panicked _ payload ih => exact .inr (.inr ⟨payload, rfl⟩)
  obtain ⟨⟨⟩⟩ | ⟨⟨⟩⟩ | ⟨payload, ⟨⟩⟩ := ends _ left
  rfl

theorem LeavesBy.of_refused {allowed : Code K α → Prop} {request : Request K s}
    {next : s.Answer K → Code K α} {rest : Code K α}
    (left : (.call request next : Code K α).LeavesBy allowed rest)
    (refused : ¬ allowed (.call request next)) : rest = .call request next := by
  induction left with
  | self => rfl
  | read _ _ ih => cases ih
  | wrote _ ih => cases ih
  | answered _ may _ ih => exact absurd (ih ▸ may) refused
  | panicked _ may _ ih => exact absurd (ih ▸ may) refused

end Code

namespace Stack

/-- A stack stands below another one. -/
inductive Rests (base : Stack K w) : {s : Shape} → Stack K s → Prop
  | refl : Rests base base
  | push {s u : Shape} {rest : Stack K u} (rests : Rests base rest) (frame : Frame K s u) :
    Rests base (.push frame rest)

variable {base : Stack K w} {stack : Stack K s}

theorem Rests.trans {top : Stack K u} (below : base.Rests stack) (rests : stack.Rests top) :
    base.Rests top := by
  induction rests with
  | refl => exact below
  | push _ frame ih => exact ih.push frame

theorem Over.rests (stacked : base.Over stack) : base.Rests stack := by
  induction stacked with
  | refl => exact .refl
  | push _ _ ih => exact ih.push _

theorem calls_left {frame : Frame K s w} (machine : frame.waits = false)
    (own : frame.ofThread = false) (rest : Stack K w) : rest.calls = false := by
  cases frame with
  | waiting => cases machine
  | suspended => cases own
  | _ => first
    | exact calls_result rest
    | exact calls_unit rest
    | exact calls_artifact rest

end Stack

namespace Config

variable {c d : Config K} {t : List (Config K × Config K)} {G : Config K → Prop}

/-- The code that was called on a stack is under way: it runs, or something does above it. -/
inductive Within (stack : Stack K s) : Config K → Prop
  | running (σ : State K) (code : Code K (s.Answer K)) : Within stack ⟨s, σ, .run code, stack⟩
  | above {u w : Shape} (σ : State K) (control : Control K u) (frame : Frame K u w) {rest : Stack K w}
    (rests : stack.Rests rest) : Within stack ⟨u, σ, control, .push frame rest⟩

theorem Within.rests {stack : Stack K s} (within : c.Within stack) : stack.Rests c.stack := by
  cases within with
  | running => exact .refl
  | above _ _ frame rests => exact rests.push frame

theorem within_of_push {frame : Frame K s w} {stack : Stack K w}
    (rests : (Stack.push frame stack).Rests c.stack) : c.Within stack := by
  obtain ⟨s, σ, control, top⟩ := c
  replace rests : (Stack.push frame stack).Rests top := rests
  cases rests with
  | refl => exact .above σ control frame .refl
  | push rests top => exact .above σ control top ((Stack.Rests.refl.push frame).trans rests)

def Called (t : List (Config K × Config K)) (call : Call K s) (stack : Stack K s) : Prop :=
  ∃ before σ d after, t = before ++ (⟨s, σ, .call call, stack⟩, d) :: after ∧
    ∀ p ∈ after, p.2.Within stack

theorem Called.snoc {call : Call K s} {stack : Stack K s} (called : Called t call stack)
    (within : d.Within stack) : Called (t ++ [(c, d)]) call stack := by
  obtain ⟨before, σ, e, after, rfl, stays⟩ := called
  refine ⟨before, σ, e, after ++ [(c, d)], by simp, fun p mem => ?_⟩
  rcases List.mem_append.mp mem with mem | mem
  · exact stays p mem
  · rw [List.mem_singleton.mp mem]
    exact within

theorem On.rests {base : Stack K w} (on : d.On base) : base.Rests d.stack := by
  cases on with
  | idle stacked => exact stacked.rests
  | call stacked => exact stacked.rests.push _

def Ran (t : List (Config K × Config K)) (stack : Stack K s) (code : Code K (s.Answer K)) : Prop :=
  ∃ σ d, (⟨s, σ, .run code, stack⟩, d) ∈ t

theorem Ran.snoc {stack : Stack K s} {code : Code K (s.Answer K)} (ran : Ran t stack code)
    (p : Config K × Config K) : Ran (t ++ [p]) stack code := by
  obtain ⟨σ, e, mem⟩ := ran
  exact ⟨σ, e, List.mem_append_left _ mem⟩

def Fits : Config K → Prop
  | ⟨_, σ, .call c, .push frame rest⟩ => frame.Fits σ rest c
  | _ => True

theorem fits_of_not_calls {σ : State K} {control : Control K s} {stack : Stack K s}
    (idle : stack.calls = false) : Fits ⟨s, σ, control, stack⟩ := by
  cases control with
  | call c =>
    cases stack with
    | empty => trivial
    | push frame rest => cases frame <;> trivial
  | _ => trivial

theorem Follows.fits (follows : Follows β c d) : d.Fits := by
  cases follows_transit follows with
  | acted _ passage =>
    cases passage.stack with
    | idle _ idle => exact fits_of_not_calls idle
    | call _ _ _ fits => exact fits
  | _ => trivial

theorem Run.fits {σ : State K} {code : Code K Unit} (run : Run β G (start σ code) t c) :
    c.Fits := by
  cases run with
  | refl => trivial
  | snoc _ _ follows => exact follows.fits

variable (β)

def Bound (t : List (Config K × Config K)) (code : Code K (s.Answer K)) (stack : Stack K s) : Prop :=
  stack.calls = true → ∃ call, Called t call stack ∧ (β.code call).LeavesBy (Ran t stack) code

/-- What is owed to the frames below client code that waits: whatever it is answered, and if its
request panics, it goes on as the code that was called there. -/
def Owed (t : List (Config K × Config K)) : {s : Shape} → Stack K s → Prop
  | _, .empty => True
  | _, .push frame rest => (∀ next, frame = .waiting next →
      (∀ answer, Bound β t (next answer) rest) ∧ ∀ payload, Bound β t (.panic payload) rest) ∧
    Owed t rest

structure Accounted (t : List (Config K × Config K)) (c : Config K) : Prop where
  running : ∀ code, c.control = .run code → Bound β t code c.stack
  owed : Owed β t c.stack

variable {β}

theorem Bound.snoc {code : Code K (s.Answer K)} {stack : Stack K s} (bound : Bound β t code stack)
    (within : d.Within stack) : Bound β (t ++ [(c, d)]) code stack := by
  intro calls
  obtain ⟨call, called, leaves⟩ := bound calls
  exact ⟨call, called.snoc within, leaves.imp fun _ ran => ran.snoc _⟩

theorem Owed.snoc {stack : Stack K s} (owed : Owed β t stack) (rests : stack.Rests d.stack) :
    Owed β (t ++ [(c, d)]) stack := by
  induction stack with
  | empty => trivial
  | push frame rest ih =>
    have below : rest.Rests d.stack := (Stack.Rests.refl.push frame).trans rests
    refine ⟨fun next waits => ?_, ih owed.2 below⟩
    obtain ⟨answers, panics⟩ := owed.1 next waits
    have within := within_of_push rests
    exact ⟨fun answer => (answers answer).snoc within, fun payload => (panics payload).snoc within⟩

theorem Owed.push {frame : Frame K s w} {rest : Stack K w} (owed : Owed β t rest)
    (machine : frame.waits = false) : Owed β t (.push frame rest) := by
  refine ⟨?_, owed⟩
  rintro next rfl
  cases machine

theorem Owed.over {base : Stack K w} {stack : Stack K s} (owed : Owed β t base)
    (stacked : base.Over stack) : Owed β t stack := by
  induction stacked with
  | refl => exact owed
  | push _ plain ih => exact ih.push plain.waits

theorem Accounted.beneath (accounted : c.Accounted β t) {base : Stack K w}
    (beneath : c.Beneath base) (rests : base.Rests d.stack) : Owed β (t ++ [(c, d)]) base := by
  cases beneath with
  | same => exact accounted.owed.snoc rests
  | asked σ request next stack =>
    have within := within_of_push rests
    refine ⟨?_, accounted.owed.snoc within.rests⟩
    rintro _ ⟨⟩
    have bound := accounted.running _ rfl
    have ran : Ran (t ++ [(⟨_, σ, .run (.call request next), stack⟩, d)]) stack
        (.call request next) := ⟨σ, d, List.mem_append_right t (List.mem_singleton_self _)⟩
    constructor
    · intro answer calls
      obtain ⟨call, called, leaves⟩ := bound.snoc within calls
      exact ⟨call, called, leaves.answered ran answer⟩
    · intro payload calls
      obtain ⟨call, called, leaves⟩ := bound.snoc within calls
      exact ⟨call, called, leaves.panicked ran payload⟩
  | left => exact accounted.owed.2.snoc rests
  | mounted => exact accounted.owed.2.snoc rests
  | built => exact Owed.push (accounted.owed.2.snoc (within_of_push rests).rests) rfl
  | adopted => exact accounted.owed.2.snoc rests
  | told => exact Owed.push (accounted.owed.snoc (within_of_push rests).rests) rfl
  | passed => exact Owed.push (accounted.owed.2.snoc (within_of_push rests).rests) rfl

theorem Accounted.follows (accounted : c.Accounted β t) (follows : Follows β c d) :
    d.Accounted β (t ++ [(c, d)]) := by
  cases follows_transit follows with
  | entered σ call stack =>
    refine ⟨?_, accounted.owed.snoc .refl⟩
    rintro _ ⟨⟩ _
    exact ⟨call, ⟨t, σ, _, [], rfl, fun _ mem => absurd mem List.not_mem_nil⟩, .self⟩
  | read σ next stack =>
    refine ⟨?_, accounted.owed.snoc .refl⟩
    rintro _ ⟨⟩ calls
    obtain ⟨call, called, leaves⟩ := (accounted.running _ rfl).snoc (.running _ _) calls
    exact ⟨call, called, leaves.read σ.memory⟩
  | wrote σ memory next stack =>
    refine ⟨?_, accounted.owed.snoc .refl⟩
    rintro _ ⟨⟩ calls
    obtain ⟨call, called, leaves⟩ := (accounted.running _ rfl).snoc (.running _ _) calls
    exact ⟨call, called, leaves.wrote⟩
  | answered σ next answer rest =>
    refine ⟨?_, accounted.owed.2.snoc .refl⟩
    rintro _ ⟨⟩
    exact ((accounted.owed.1 next rfl).1 answer).snoc (.running _ _)
  | dropped σ payload frame rest own =>
    refine ⟨?_, accounted.owed.2.snoc .refl⟩
    rintro _ ⟨⟩
    cases machine : frame.waits with
    | true =>
      cases frame with
      | waiting next => exact ((accounted.owed.1 next rfl).2 payload).snoc (.running _ _)
      | _ => cases machine
    | false =>
      intro calls
      rw [Stack.calls_left machine own rest] at calls
      cases calls
  | acted beneath passage =>
    have owed := accounted.beneath beneath passage.stack.rests
    cases passage.stack with
    | idle stacked idle =>
      refine ⟨?_, owed.over stacked⟩
      rintro code - calls
      rw [idle] at calls
      cases calls
    | call stacked machine => exact ⟨by rintro _ ⟨⟩, (owed.over stacked).push machine⟩

theorem Run.accounted {σ : State K} {code : Code K Unit} (run : Run β G (start σ code) t c) :
    c.Accounted β t := by
  induction run with
  | refl =>
    refine ⟨?_, trivial⟩
    rintro _ - ⟨⟩
  | snoc _ _ follows ih => exact ih.follows follows

theorem Run.running {σ σ' : State K} {code : Code K Unit} {code' : Code K (s.Answer K)}
    {stack : Stack K s} (run : Run β G (start σ code) t ⟨s, σ', .run code', stack⟩)
    (calls : stack.calls = true) :
    ∃ (call : Call K s) (before : List (Config K × Config K)) (τ : State K) (d : Config K)
      (after : List (Config K × Config K)),
      (β.code call).LeavesBy (Ran t stack) code' ∧
      t = before ++ (⟨s, τ, .call call, stack⟩, d) :: after ∧
      (∀ p ∈ after, p.2.Within stack) ∧
      Run β G (start σ code) before ⟨s, τ, .call call, stack⟩ := by
  obtain ⟨call, ⟨before, τ, d, after, rfl, stays⟩, leaves⟩ := run.accounted.running _ rfl calls
  exact ⟨call, before, τ, d, after, leaves, rfl, stays, (run.split rfl).1⟩

theorem Run.called {σ σ' : State K} {code : Code K Unit} {frame : Frame K s w} {rest : Stack K w}
    {answer : s.Answer K}
    (run : Run β G (start σ code) t ⟨s, σ', .run (.done answer), .push frame rest⟩)
    (calls : frame.calls = true) :
    ∃ (call : Call K s) (before : List (Config K × Config K)) (τ : State K) (d : Config K)
      (after : List (Config K × Config K)),
      (β.code call).Leaves (.done answer) ∧
      t = before ++ (⟨s, τ, .call call, .push frame rest⟩, d) :: after ∧
      (∀ p ∈ after, p.2.Within (.push frame rest)) ∧
      frame.Fits τ rest call ∧
      Run β G (start σ code) before ⟨s, τ, .call call, .push frame rest⟩ := by
  obtain ⟨call, before, τ, d, after, leaves, rfl, stays, start⟩ := run.running calls
  exact ⟨call, before, τ, d, after, leaves.leaves, rfl, stays, start.fits, start⟩

end Config

section

variable {σ : State K} {stack : Stack K .unit} {base : Stack K .unit} {k : ComponentId}
  {source : Source} {signal heard : Signal K.Artifact} {o : Observer K} {others : List (Observer K)}

theorem Config.Reacting.further (reacting : Config.Reacting k heard base
    ⟨.unit, σ, .run (.done ()), .push (.emitting source (o :: others) signal) stack⟩) :
    base = .push (.emitting source others signal) stack := by
  cases reacting with
  | intro delivering =>
    cases delivering
    rfl

theorem Config.Requesting.further (requesting : Config.Requesting k base
    ⟨.unit, σ, .run (.done ()), .push (.emitting source (o :: others) signal) stack⟩) :
    base = .push (.emitting source others signal) stack := by
  cases requesting with
  | told reacting => exact reacting.further

end

theorem Next.deliver_cons_rests {σ : State K} (stack : Stack K .unit) (source : Source)
    (signal : Signal K.Artifact) (o : Observer K) (others : List (Observer K)) :
    (Next.deliver σ stack source signal (o :: others)).Holds fun d =>
      (Stack.push (.emitting source others signal) stack).Rests d.stack := by
  refine (Next.deliver_transition (.further σ)).imp fun d step => ?_
  cases step with
  | delivered delivering => cases delivering
  | noticed delivering =>
    cases delivering
    exact .refl
  | unheld delivering =>
    cases delivering
    exact .refl
  | marked requesting =>
    cases requesting.further
    exact .refl
  | requested requesting =>
    cases requesting.further
    exact .push .refl _
  | bare reacting =>
    cases reacting.further
    exact .refl
  | forked reacting =>
    cases reacting.further
    exact .push .refl _
  | rejected reacting =>
    cases reacting.further
    exact .push .refl _

theorem Next.deliver_rests {σ : State K} (stack : Stack K .unit) (source : Source)
    (signal : Signal K.Artifact) (observers : List (Observer K)) :
    (Next.deliver σ stack source signal observers).Holds fun d =>
      d = ⟨.unit, σ, .run (.done ()), stack⟩ ∨
        ∃ others, (Stack.push (.emitting source others signal) stack).Rests d.stack := by
  cases observers with
  | nil => exact Next.holds_give.mpr (.inl rfl)
  | cons o others =>
    exact (Next.deliver_cons_rests stack source signal o others).imp fun d rests =>
      .inr ⟨others, rests⟩

namespace Config

variable {c d : Config K}

/-- A frame stays where it is until what runs above it has ended. -/
theorem Follows.stays (follows : Follows β c d) {frame : Frame K s w} {rest : Stack K w}
    (rests : (Stack.push frame rest).Rests c.stack) :
    (Stack.push frame rest).Rests d.stack ∨
      ∃ σ result, c = ⟨s, σ, .run (.ended result), .push frame rest⟩ := by
  cases follows_transit follows with
  | entered => exact .inl rests
  | read => exact .inl rests
  | wrote => exact .inl rests
  | answered σ next answer =>
    cases rests with
    | refl => exact .inr ⟨σ, .ok answer, rfl⟩
    | push rests => exact .inl rests
  | dropped σ payload =>
    cases rests with
    | refl => exact .inr ⟨σ, .error payload, rfl⟩
    | push rests => exact .inl rests
  | acted beneath passage =>
    have above := passage.stack.rests
    cases beneath with
    | same => exact .inl (rests.trans above)
    | asked => exact .inl ((rests.push _).trans above)
    | left σ ended =>
      cases rests with
      | refl =>
        obtain ⟨result, rfl⟩ := ended
        exact .inr ⟨σ, result, rfl⟩
      | push rests => exact .inl (rests.trans above)
    | mounted σ k inputs p =>
      cases rests with
      | refl => exact .inr ⟨σ, .ok p, rfl⟩
      | push rests => exact .inl (rests.trans above)
    | built σ k h p =>
      cases rests with
      | refl => exact .inr ⟨σ, .ok p, rfl⟩
      | push rests => exact .inl ((rests.push _).trans above)
    | adopted σ k j result =>
      cases rests with
      | refl => exact .inr ⟨σ, .ok result, rfl⟩
      | push rests => exact .inl (rests.trans above)
    | told => exact .inl ((rests.push _).trans above)
    | passed σ =>
      cases rests with
      | refl => exact .inr ⟨σ, .ok (), rfl⟩
      | push rests => exact .inl ((rests.push _).trans above)

end Config

end Resumable
