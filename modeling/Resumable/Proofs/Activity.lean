import Resumable.Proofs.Objects
import Resumable.Proofs.Run
import Mathlib.Data.Multiset.ZeroCons

namespace Resumable

variable {K : Client} {s w : Shape}

/-- What can be under way for an instance: one of its steps, one of its computations, the call of
one of its producers, a replay, or a producer of its that has not settled. -/
inductive Activity where
  | step (position : Position)
  | computation (position : Position) (keys : List Value)
  | launch (position : Position) (keys : Option (List Value))
  | replay
  | producer (position : Position) (keys : Option (List Value))
  deriving DecidableEq

def Activity.Locks : Activity → Prop
  | launch _ _ => True
  | replay => True
  | _ => False

inductive Deed (A : Type) where
  | resume
  | produce (position : Position) (keys : Option (List Value))
  | tell (signal : Signal A)

def Task.activity (task : Task K) : InstanceId × Activity :=
  (task.owner, .producer task.position task.keys)

def Frame.activity? : Frame K s w → Option (InstanceId × Activity)
  | stepping id position => some (id, .step position)
  | computing id position keys => some (id, .computation position keys)
  | launching id position keys => some (id, .launch position keys)
  | replaying id _ _ => some (id, .replay)
  | polling task => some task.activity
  | _ => none

def ownedBy {α : Type} (i : InstanceId) : Option (InstanceId × α) → Option α
  | some (j, a) => if j = i then some a else none
  | none => none

section

variable {α : Type} {i j : InstanceId} {a b : α}

@[simp]
theorem ownedBy_some_self : ownedBy i (some (i, a)) = some a :=
  if_pos rfl

theorem ownedBy_some_ne (ne : j ≠ i) : ownedBy i (some (j, a)) = none :=
  if_neg ne

theorem ownedBy_some_eq_some : ownedBy i (some (j, a)) = some b ↔ j = i ∧ a = b :=
  Option.ite_none_right_eq_some.trans (and_congr_right fun _ => Option.some_inj)

end

def Activity.also : Option Activity → Multiset Activity → Multiset Activity
  | some a, as => a ::ₘ as
  | none, as => as

def Stack.underWay (i : InstanceId) :
    {s : Shape} → Stack K s → Multiset Activity → Multiset Activity
  | _, empty, as => as
  | _, push frame rest, as => Activity.also (ownedBy i frame.activity?) (rest.underWay i as)

def State.underWay (i : InstanceId) (σ : State K) : Multiset Activity :=
  σ.tasks.foldr (fun task => Activity.also (ownedBy i (some task.activity))) 0

def Frame.deed? : Frame K s w → Option (InstanceId × Deed K.Artifact)
  | stepping id _ => some (id, .resume)
  | launching id position keys => some (id, .produce position keys)
  | replaying id _ _ => some (id, .resume)
  | _ => none

def Signal.deed? {A : Type} : Signal A → Option (Deed A)
  | forked _ => none
  | signal => some (.tell signal)

namespace Config

def underWay (i : InstanceId) (c : Config K) : Multiset Activity :=
  c.stack.underWay i (c.state.underWay i)

def deed? (i : InstanceId) : Config K → Option (Deed K.Artifact)
  | ⟨_, _, .call _, .push frame _⟩ => ownedBy i frame.deed?
  | ⟨_, _, .emit (.ofInstance j) signal, _⟩ => ownedBy i (signal.deed?.map (j, ·))
  | _ => none

/-- The future of a task is over, by an answer or by a panic. -/
inductive Completes (stack : Stack K .unit) (task : Task K) : Except Failure Value → Config K → Prop
  | answered (σ : State K) (r : Except String Value) : Completes stack task (r.mapError .failed)
      ⟨.progress, σ, .run (.done (Progress.ready r)), .push (.polling task) stack⟩
  | panicked (σ : State K) (payload : Payload) : Completes stack task (.error (.panicked payload))
      ⟨.progress, σ, .run (.panic payload), .push (.polling task) stack⟩

theorem Completes.unique {c : Config K} {stack stack' : Stack K .unit} {task task' : Task K}
    {outcome outcome' : Except Failure Value} (completes : c.Completes stack task outcome)
    (completes' : c.Completes stack' task' outcome') :
    stack = stack' ∧ task = task' ∧ outcome = outcome' := by
  cases completes <;> cases completes' <;> exact ⟨rfl, rfl, rfl⟩

/-- An activity of an instance is lost: a panic drops its frame, or a future is over when the
instance is gone. -/
inductive Loses (i : InstanceId) : Config K → Prop
  | dropped {u v : Shape} (σ : State K) (payload : Payload) (frame : Frame K u v)
    (rest : Stack K v) {a : Activity} (activity : frame.activity? = some (i, a))
    (other : ∀ n keys, a ≠ .producer n keys) :
    Loses i ⟨u, σ, .run (.panic payload), .push frame rest⟩
  | gone {c : Config K} {stack : Stack K .unit} {task : Task K} {outcome : Except Failure Value}
    (completes : c.Completes stack task outcome) (owner : task.owner = i)
    (dead : c.state.instanceAlive stack i = false) : Loses i c

inductive Cuts (i : InstanceId) : Config K → SubscriptionId → Prop
  | unsubscribe {u : Shape} (σ : State K) (n : SubscriptionId)
    (next : Shape.flag.Answer K → Code K (u.Answer K)) (stack : Stack K u) :
    Cuts i ⟨u, σ, .run (.call (.unsubscribe (.ofInstance i) n) next), stack⟩ n

end Config

inductive Registry.Later (cut : SubscriptionId → Prop) (r : Registry (Observer K)) :
    Registry (Observer K) → Prop
  | same : Later cut r r
  | subscribed (o : K.Observer) : Later cut r (r.subscribe (.client o)).2
  | unsubscribed {n : SubscriptionId} (asked : cut n) : Later cut r (r.unsubscribe n).2

structure Instance.Newborn (x : Instance K) : Prop where
  history : x.history = []
  procedure : x.procedure ≠ none
  status : x.status ≠ .running

/-- What a step of the machine can mean for one instance: the instance and what is under way for
it before, what begins for it, and both after. Something may be lost for it if `lost` holds, and its
subscriptions in `cut` may be removed; `memos` are the memos before. -/
inductive Turn (lost : Prop) (cut : SubscriptionId → Prop) (memos : MemoId → Memo) :
    Option (Instance K) → Multiset Activity → Option (Deed K.Artifact) →
    Option (Instance K) → Multiset Activity → Prop
  | absent : Turn lost cut memos none 0 none none 0
  | born {x : Instance K} (newborn : x.Newborn) : Turn lost cut memos none 0 none (some x) 0
  | bornReplaying {x : Instance K} (newborn : x.Newborn) (status : x.status = .paused) :
    Turn lost cut memos none 0 (some .resume) (some x.lend) {.replay}
  | stays {x x' : Instance K} {as : Multiset Activity} (status : x'.status = x.status)
    (procedure : x'.procedure = x.procedure) (history : x'.history = x.history)
    (registry : x.registry.Later cut x'.registry) :
    Turn lost cut memos (some x) as none (some x') as
  | terminated {x : Instance K} {as : Multiset Activity} (unlocked : ∀ a ∈ as, ¬ a.Locks) :
    Turn lost cut memos (some x) as none (some x.terminate) as
  | dropped {x : Instance K} {a : Activity} {as : Multiset Activity} (loses : lost) :
    Turn lost cut memos (some x) (a ::ₘ as) none (some x) as
  -- A paused instance is driven.
  | refused {x : Instance K} {as : Multiset Activity} (status : x.status = .paused)
    (unlocked : ∀ a ∈ as, ¬ a.Locks) (reason : x.exhausted? ≠ none ∨ x.procedure = none) :
    Turn lost cut memos (some x) as none (some x.fail) as
  | started {x : Instance K} {p : K.Procedure} {as : Multiset Activity}
    (status : x.status = .paused) (room : x.exhausted? = none)
    (procedure : x.procedure = some p) :
    Turn lost cut memos (some x) as (some .resume) (some { x.lend with status := .running })
      (.step x.position ::ₘ as)
  -- A step has answered.
  | overtaken {x : Instance K} {p : K.Procedure} {n : Position} {as : Multiset Activity}
    (status : x.status = .terminated) :
    Turn lost cut memos (some x) (.step n ::ₘ as) none (some (x.takeBack p)) as
  | failed {x : Instance K} {p : K.Procedure} {n : Position} {as : Multiset Activity}
    (status : x.status ≠ .terminated) :
    Turn lost cut memos (some x) (.step n ::ₘ as) none (some (x.takeBack p).fail) as
  | completed {x : Instance K} {p : K.Procedure} {n : Position} {as : Multiset Activity}
    (status : x.status ≠ .terminated) (artifact : K.Artifact) :
    Turn lost cut memos (some x) (.step n ::ₘ as) (some (.tell .done))
      (some ((x.takeBack p).complete artifact)) as
  | recorded {x : Instance K} {p : K.Procedure} {n : Position} {as : Multiset Activity}
    (status : x.status ≠ .terminated) (e : Entry K.Artifact) :
    Turn lost cut memos (some x) (.step n ::ₘ as) (some (.tell .ready))
      (some ((x.takeBack p).record e)) as
  | computing {x : Instance K} {p : K.Procedure} {n : Position} {as : Multiset Activity}
    (status : x.status ≠ .terminated) {keys : List Value}
    (missed : (memos x.memo).lookup n keys = none) :
    Turn lost cut memos (some x) (.step n ::ₘ as) none (some (x.takeBack p))
      (.computation n keys ::ₘ as)
  | launching {x : Instance K} {p : K.Procedure} {n : Position} {as : Multiset Activity}
    (status : x.status ≠ .terminated) {keys : Option (List Value)}
    (missed : keys.bind ((memos x.memo).lookup n) = none) :
    Turn lost cut memos (some x) (.step n ::ₘ as) (some (.produce n keys)) (some (x.takeBack p))
      (.launch n keys ::ₘ as)
  -- A computation has given its value.
  | outdated {x : Instance K} {n : Position} {keys : List Value} {as : Multiset Activity}
    (status : x.status = .terminated) :
    Turn lost cut memos (some x) (.computation n keys ::ₘ as) none (some x) as
  | computed {x : Instance K} {n : Position} {keys : List Value} {as : Multiset Activity}
    (status : x.status ≠ .terminated) (v : Value) :
    Turn lost cut memos (some x) (.computation n keys ::ₘ as) (some (.tell .ready))
      (some (x.record (.yielded v))) as
  -- A producer is on its way, and settles.
  | launched {x : Instance K} {n : Position} {keys : Option (List Value)}
    {as : Multiset Activity} :
    Turn lost cut memos (some x) (.launch n keys ::ₘ as) none (some x) (.producer n keys ::ₘ as)
  | ignored {x : Instance K} {n : Position} {keys : Option (List Value)} {as : Multiset Activity}
    (reason : x.status ≠ .running ∨ x.position ≠ n) :
    Turn lost cut memos (some x) (.producer n keys ::ₘ as) none (some x) as
  | settled {x : Instance K} {n : Position} {keys : Option (List Value)} {as : Multiset Activity}
    (status : x.status = .running) (position : x.position = n) (v : Value) :
    Turn lost cut memos (some x) (.producer n keys ::ₘ as) (some (.tell .ready))
      (some (x.record (.yielded v))) as
  | rejected {x : Instance K} {n : Position} {keys : Option (List Value)} {as : Multiset Activity}
    (status : x.status = .running) (position : x.position = n) (failure : Failure) :
    Turn lost cut memos (some x) (.producer n keys ::ₘ as)
      (some (.tell (.rejected (.producer n failure)))) (some x.fail) as
  -- A replay.
  | replayStarted {x : Instance K} {as : Multiset Activity} (status : x.status = .paused)
    (fresh : x.history = []) (procedure : x.procedure ≠ none) :
    Turn lost cut memos (some x) as (some .resume) (some x.lend) (.replay ::ₘ as)
  | replayed {x : Instance K} {as : Multiset Activity} (e : Entry K.Artifact) :
    Turn lost cut memos (some x) (.replay ::ₘ as) (some .resume) (some (x.record e)) (.replay ::ₘ as)
  | replayEnded {x : Instance K} {p : K.Procedure} {as : Multiset Activity}
    (e : Entry K.Artifact) :
    Turn lost cut memos (some x) (.replay ::ₘ as) none (some ((x.record e).takeBack p)) as
  | replayCompleted {x : Instance K} {p : K.Procedure} {as : Multiset Activity}
    (artifact : K.Artifact) :
    Turn lost cut memos (some x) (.replay ::ₘ as) none (some ((x.takeBack p).complete artifact)) as
  | diverged {x : Instance K} {p : K.Procedure} {as : Multiset Activity} :
    Turn lost cut memos (some x) (.replay ::ₘ as) none (some (x.takeBack p).fail) as

inductive Activity.Begun (memos : MemoId → Memo) (o : Option (Instance K)) (as : Multiset Activity)
    (deed : Option (Deed K.Artifact)) : Activity → Prop
  | before {a : Activity} (mem : a ∈ as) : Begun memos o as deed a
  | step (n : Position) : Begun memos o as deed (.step n)
  | replay : Begun memos o as deed .replay
  | computation {n : Position} {keys : List Value} {x : Instance K} (step : .step n ∈ as)
    (found : o = some x) (missed : (memos x.memo).lookup n keys = none) :
    Begun memos o as deed (.computation n keys)
  | launch {n : Position} {keys : Option (List Value)} {x : Instance K} (step : .step n ∈ as)
    (found : o = some x) (missed : keys.bind ((memos x.memo).lookup n) = none)
    (produces : deed = some (.produce n keys)) : Begun memos o as deed (.launch n keys)
  | producer {n : Position} {keys : Option (List Value)} (launch : .launch n keys ∈ as) :
    Begun memos o as deed (.producer n keys)

theorem Turn.begun {lost : Prop} {cut : SubscriptionId → Prop} {memos : MemoId → Memo}
    {o o' : Option (Instance K)} {as as' : Multiset Activity} {deed : Option (Deed K.Artifact)}
    {a : Activity} (turn : Turn lost cut memos o as deed o' as') (mem : a ∈ as') :
    a.Begun memos o as deed := by
  cases turn with
  | absent => exact absurd mem (Multiset.notMem_zero _)
  | born => exact absurd mem (Multiset.notMem_zero _)
  | bornReplaying =>
    rw [Multiset.mem_singleton.mp mem]
    exact .replay
  | stays => exact .before mem
  | terminated => exact .before mem
  | refused => exact .before mem
  | started =>
    rcases Multiset.mem_cons.mp mem with rfl | mem
    · exact .step _
    · exact .before mem
  | replayStarted =>
    rcases Multiset.mem_cons.mp mem with rfl | mem
    · exact .replay
    · exact .before mem
  | replayed => exact .before mem
  | computing _ missed =>
    rcases Multiset.mem_cons.mp mem with rfl | mem
    · exact .computation (Multiset.mem_cons_self ..) rfl missed
    · exact .before (Multiset.mem_cons_of_mem mem)
  | launching _ missed =>
    rcases Multiset.mem_cons.mp mem with rfl | mem
    · exact .launch (Multiset.mem_cons_self ..) rfl missed rfl
    · exact .before (Multiset.mem_cons_of_mem mem)
  | launched =>
    rcases Multiset.mem_cons.mp mem with rfl | mem
    · exact .producer (Multiset.mem_cons_self ..)
    · exact .before (Multiset.mem_cons_of_mem mem)
  | _ => exact .before (Multiset.mem_cons_of_mem mem)

end Resumable
