import Resumable.Proofs.Feeding
import Resumable.Proofs.Hearing

namespace Resumable

variable {K : Client} {β : Behaviour K} {k : ComponentId} {i j : InstanceId} {σ : State K}

inductive Code.Fires {α : Type} (i : InstanceId) : Code K α → Prop
  | fire (setter : Setter K.Artifact) (v : Value) (next : Shape.unit.Answer K → Code K α)
    (own : setter.owner = i) : Fires i (.call (.fire setter v) next)

def Behaviour.Constructs (β : Behaviour K) (factory : K.Factory) (inputs : K.Inputs)
    (p : K.Procedure) : Prop :=
  (β.code (.build factory inputs)).Leaves (.done p)

/-- The procedures that a factory builds have steps that fire alike: whether a step fires a setter of
its own instance depends on what its procedure was built of and has been fed. If one may fire, no
other one that was fed the same, as that of whichever instance, comes to an answer without. -/
def Behaviour.FiresAlike (β : Behaviour K) (factory : K.Factory) : Prop :=
  ∀ inputs i j h p q, β.Feeds (β.Constructs factory inputs) i h p →
    β.Feeds (β.Constructs factory inputs) j h q →
    (∃ code, (β.code (.resume p (Resumption.next? i h))).Leaves code ∧ code.Fires i) →
    ∀ answer, ¬ (β.code (.resume q (Resumption.next? j h))).LeavesBy (¬ ·.Fires j) (.done answer)

namespace Config

variable {c d : Config K} {t u : List (Config K × Config K)} {memory : K.Memory} {ambient : Bool}
  {code : Code K Unit}

/-- A step under the replay of a fork fires a setter of the instance that is replayed. -/
inductive Reenters (k : ComponentId) : Config K → Prop
  | intro (σ : State K) (setter : Setter K.Artifact) (v : Value)
    (next : Shape.unit.Answer K → Code K (Shape.step.Answer K)) (e : Entry K.Artifact)
    (later : History K.Artifact) (rest : Stack K .unit) :
    Reenters k ⟨.step, σ, .run (.call (.fire setter v) next),
      .push (.replaying setter.owner e later) (.push (.adopting k setter.owner) rest)⟩

/-- A setter is fired of an instance that a living component hears. -/
inductive Demands (k : ComponentId) (setter : Setter K.Artifact) (v : Value) : Config K → Prop
  | intro {s : Shape} (σ : State K) (next : Shape.unit.Answer K → Code K (s.Answer K))
    (stack : Stack K s) (observes : σ.Observes k (.ofInstance setter.owner))
    (alive : σ.componentAlive stack k = true) :
    Demands k setter v ⟨s, σ, .run (.call (.fire setter v) next), stack⟩

/-- A setter that a living component is to hear of was handed out for a slot of its instance. -/
def Genuine (k : ComponentId) (c : Config K) : Prop :=
  ∀ setter v, c.Demands k setter v →
    ∃ w, setter.before ++ [.state w] <+: c.state.history setter.owner

theorem instanceAlive_of_resumed {s : Shape} {frame : Frame K .step .result}
    {rest : Stack K .result} (next : s.Answer K → Code K (Shape.step.Answer K))
    (own : frame.resumed? = some i) :
    σ.instanceAlive (.push (.waiting next) (.push frame rest)) i = true := by
  have uses : frame.instance? = some i := by
    cases frame <;> cases own <;> rfl
  simp [State.instanceAlive, Stack.usesInstance, Stack.any, uses]

theorem Run.refrains {frame : Frame K .step .result} {rest : Stack K .result}
    {answer : Shape.step.Answer K}
    (run : Run β (fun c => ¬ c.Abandons k) (start { memory := memory, ambient := ambient } code) t
      ⟨.step, σ, .run (.done answer), .push frame rest⟩) (own : frame.resumed? = some j)
    (later : Run β (fun c => ¬ c.Abandons k)
      ⟨.step, σ, .run (.done answer), .push frame rest⟩ u d)
    (dropped : ∀ p ∈ t ++ u, ¬ Revives k p) (observes : d.state.Observes k (.ofInstance j))
    (alive : d.state.componentAlive d.stack k = true)
    (code' : Code K (Shape.step.Answer K)) (ran : Ran t (.push frame rest) code') :
    ¬ code'.Fires j := by
  rintro ⟨setter, v, next, rfl⟩
  obtain ⟨τ, e, mem⟩ := ran
  obtain ⟨v₁, v₂, rfl⟩ := List.append_of_mem mem
  obtain ⟨first, guard, fires, since⟩ := run.split rfl
  have after := since.append later
  obtain ⟨x, -, -, -, -, -, found, -⟩ := first.resuming own
  obtain ⟨observes', alive'⟩ := first.heard_before (Run.append (.snoc .refl guard fires) after)
    found (fun p mem => dropped p (by simpa using .inr (by simpa using mem))) observes alive
  have living : τ.instanceAlive (.push (.waiting next) (.push frame rest)) setter.owner = true :=
    instanceAlive_of_resumed next own
  obtain rfl := Except.ok.inj ((step_fire (β := β) _ v next living).symm.trans
    (fires.step_eq (by rintro τ (payload | ⟨⟩) ⟨⟩)))
  rcases since.uncons with ⟨-, ends⟩ | ⟨e', v₃, -, hears, since⟩
  · cases ends
  · obtain ⟨z, found', stopped⟩ := first.fire_stops observes' alive' living fires hears
    have stands : Stands True setter.owner _ := first.stands _
    obtain ⟨z', found'', stopped'⟩ := ((stands.follows (fun _ => trivial) fires).follows
      (fun _ => trivial) hears).stays_stopped (since.append later) found' stopped
    exact not_observes_of_stopped found'' stopped' observes

variable {G : Config K → Prop} {τ : State K} {e : Entry K.Artifact} {h later : History K.Artifact}
  {rest : Stack K .unit} {p : K.Procedure}

theorem history_replayed {x : Instance K} {answer : Shape.step.Answer K} {call : Call K .step}
    {rest : Stack K .result} {stack : Stack K .step} (found : σ.instances[i]? = some x)
    (follows : Follows β ⟨.step, σ, .run (.done answer), .push (.replaying i e later) rest⟩
      ⟨.step, τ, .call call, stack⟩) : τ.history i = x.history ++ [e] := by
  obtain ⟨p, answer⟩ := answer
  have step := follows.step_eq (by rintro _ _ ⟨⟩)
  rw [step_done] at step
  have replays := Next.finishReplayed_replays e later found _ step
  generalize called : (⟨.step, τ, .call call, stack⟩ : Config K) = c at replays
  cases replays with
  | resumed fits more input =>
    cases called
    exact State.history_of_found (x := x.record e)
      (by rw [State.instances_modifyInstance_self, found]; rfl)
  | _ => cases called

theorem Run.replays {input : Option (Resumption K.Artifact)}
    (run : Run β G (start { memory := memory, ambient := ambient } code) t
      ⟨.step, τ, .call (.resume p input), .push (.replaying i e later) (.push (.adopting k i) rest)⟩) :
    ∃ q ∈ t, ∃ σ p₀, q.1 = ⟨.procedure, σ, .run (.done p₀),
        .push (.forking k (τ.history i ++ e :: later)) rest⟩ ∧ σ.instances.length = i := by
  induction length : t.length using Nat.strong_induction_on generalizing t τ p input e later with
  | _ n earlier =>
    subst length
    obtain ⟨u, b, rfl, before, -, follows, triggers⟩ :=
      run.sprung (a := .replay i e later (.push (.adopting k i) rest)) rfl
    generalize replay : Trigger.replay i e later (.push (.adopting k i) rest) = a at triggers
    cases triggers with
    | told tells begins => subst replay; cases begins
    | adopted => cases replay
    | rendered => cases replay
    | asked => cases replay
    | fired => cases replay
    | built σ k' e' later' p' rest' =>
      cases replay
      have stands : Stands True σ.instances.length _ :=
        before.stands _
      have empty : τ.history σ.instances.length = [] :=
        stands.history_made follows (List.getElem?_eq_none (le_refl _))
      exact ⟨_, List.mem_append_right u (List.mem_singleton_self _), σ, p', by rw [empty]; rfl, rfl⟩
    | replayed σ i' e₀ next others p' effect rest' =>
      cases replay
      obtain ⟨x, p₀, v, τ', d, v', found, -, rfl, -, same, first⟩ := before.resuming rfl
      obtain ⟨q, mem, υ, p₁, forking, made⟩ := earlier v.length (by simp) first rfl
      refine ⟨q, List.mem_append_left _ (List.mem_append_left _ mem), υ, p₁, ?_, made⟩
      rw [forking, history_replayed found follows, ← same, List.append_assoc]
      rfl

theorem Makes.answered {q : K.Procedure} {stack : Stack K .procedure}
    (makes : Makes i q ⟨.procedure, σ, .run (.done p), stack⟩) : q = p := by
  cases makes with
  | host founds => cases founds <;> rfl

theorem Built.origin {factory : K.Factory} {inputs : K.Inputs}
    (run : Run β G (start { memory := memory, ambient := ambient } code) t c)
    (built : Built β k factory inputs i t) : Origin (β.Constructs factory inputs) i t := by
  obtain ⟨u, r, v, rfl, length, builds⟩ := built
  obtain ⟨first, -, follows, later⟩ := run.split rfl
  intro q mem p makes present
  rcases List.mem_append.mp mem with mem | mem
  -- An instance that was there before is not the next one.
  · obtain ⟨u, w, rfl⟩ := List.append_of_mem mem
    obtain ⟨-, -, -, between⟩ := first.split rfl
    obtain ⟨x, found⟩ := Option.ne_none_iff_exists'.mp present
    obtain ⟨x', found', -⟩ := between.grows i x found
    have lt := (List.getElem?_eq_some_iff.mp found').1
    exact absurd (length ▸ lt) (Nat.lt_irrefl _)
  rcases List.mem_cons.mp mem with rfl | mem
  · obtain ⟨c, d⟩ := q
    cases builds with
    | answered founds called leaves =>
      rw [makes.answered]
      exact leaves
  -- What has been made is not made again.
  · obtain ⟨w, v, rfl⟩ := List.append_of_mem mem
    obtain ⟨between, -, -, -⟩ := later.split rfl
    have provides : r.1.Provides k i := by
      obtain ⟨c, d⟩ := r
      cases builds with
      | answered founds => exact ⟨⟨_, founds⟩, length⟩
    obtain ⟨-, y, given, x, -, -, -, found, -⟩ := first.provides follows provides
    obtain ⟨x', found', -⟩ := between.grows i x found
    exact absurd (makes.absent.symm.trans found') (by rintro ⟨⟩)

theorem Run.forking
    (run : Run β (fun c => ¬ c.Abandons k) (start { memory := memory, ambient := ambient } code) t
      ⟨.procedure, σ, .run (.done p), .push (.forking k h) rest⟩) :
    ∃ u q setter value y inputs, u ++ [q] <+: t ∧ q.1.Demands k setter value ∧
      setter.forked value = h ∧ q.1.state.place k = some y ∧
      Built β k y.factory inputs setter.owner (u ++ [q]) ∧
      Builds β k y.factory inputs t
        ⟨.procedure, σ, .run (.done p), .push (.forking k h) rest⟩ := by
  obtain ⟨call, before, υ, d, after, leaves, rfl, stays, -, first⟩ := run.called rfl
  obtain ⟨u, b, rfl, earlier, -, follows, triggers⟩ := first.sprung (a := .fork k h) rfl
  cases triggers with
  | told tells begins =>
    cases begins
    obtain ⟨τ, source, others, stack, rfl, observers, alive⟩ := earlier.heard.tells tells
    have observes : τ.Observes k source := by simp [State.Observes, observers]
    obtain ⟨j, rfl, -⟩ := earlier.heard.made k source observes
    obtain ⟨y, inputs, made, -, given, built, others, fork⟩ :=
      earlier.told_fork observes alive follows
    obtain ⟨_, same⟩ := Next.fork_builds _ made given _ fork
    cases same
    obtain ⟨u, b, rfl, -, -, fires, -⟩ := earlier.sprung (a := .forked j h) rfl
    obtain ⟨s, setter, value, next, stack, rfl, rfl, rfl, forked⟩ := fires.fired
    exact ⟨u, _, setter, value, y.place, inputs,
      (List.prefix_append _ _).trans (List.prefix_append _ _),
      .intro τ next stack observes alive, forked, place_of_made made, built,
      .answered (.forking σ h _) ⟨_, υ, d, after, rfl, stays⟩ leaves⟩

theorem Run.demanded {code' : Code K (Shape.step.Answer K)}
    (run : Run β (fun c => ¬ c.Abandons k) (start { memory := memory, ambient := ambient } code) t
      ⟨.step, σ, .run code', .push (.replaying i e later) (.push (.adopting k i) rest)⟩) :
    ∃ u q setter value y inputs, u ++ [q] <+: t ∧ q.1.Demands k setter value ∧
      setter.forked value = σ.history i ++ e :: later ∧ q.1.state.place k = some y ∧
      Built β k y.factory inputs setter.owner (u ++ [q]) ∧ Built β k y.factory inputs i t := by
  obtain ⟨x, p, before, τ, d, after, found, -, rfl, -, same, first⟩ := run.resuming rfl
  obtain ⟨q, mem, υ, p₀, forking, made⟩ := first.replays
  obtain ⟨u, v, rfl⟩ := List.append_of_mem mem
  have forked := (first.split rfl).1
  rw [forking] at forked
  obtain ⟨u', q', setter, value, y, inputs, prior, demands, filled, place, built, builds⟩ :=
    forked.forking
  refine ⟨u', q', setter, value, y, inputs, prior.trans ⟨_, (List.append_assoc _ _ _).symm⟩,
    demands, ?_, place, built, u, q, _, List.append_assoc _ _ _, ?_, forking ▸ builds⟩
  · rw [filled, same, State.history_of_found found]
  · rw [forking]
    exact made

theorem Run.refrained {setter : Setter K.Artifact} {v w : Value} {factory : K.Factory}
    {inputs : K.Inputs}
    (run : Run β (fun c => ¬ c.Abandons k) (start { memory := memory, ambient := ambient } code) t
      c) (demands : c.Demands k setter v) (dropped : ∀ p ∈ t, ¬ Revives k p)
    (origin : Origin (β.Constructs factory inputs) setter.owner t) (replays : h <+: setter.before)
    (genuine : setter.before ++ [.state w] <+: c.state.history setter.owner) :
    ∃ p answer, β.Feeds (β.Constructs factory inputs) setter.owner h p ∧
      (β.code (.resume p (Resumption.next? setter.owner h))).LeavesBy
        (¬ ·.Fires setter.owner) (.done answer) := by
  have shorter : h.length < (c.state.history setter.owner).length := by
    have := replays.length_le
    have := genuine.length_le
    simp only [List.length_append, List.length_singleton] at this
    omega
  obtain ⟨a, mem, answer, answers, position, -⟩ := (run.attributed setter.owner).entries h.length _
    (List.getElem?_eq_getElem shorter)
  obtain ⟨u, v, rfl⟩ := List.append_of_mem mem
  obtain ⟨first, guard, follows, since⟩ := run.split rfl
  obtain ⟨a, b⟩ := a
  cases answers with
  | made σ p frame rest own =>
    have later := Run.append (.snoc .refl guard follows) since
    obtain ⟨x, p₀, found, feeds, leaves⟩ := first.feeds own origin.of_append
    have same : x.history = h := by
      have short : x.history.length = h.length := (entries_of_found found).symm.trans position
      exact (List.prefix_of_prefix_length_le
        (State.history_of_found found ▸ later.history_prefix setter.owner)
        ((replays.trans (List.prefix_append _ _)).trans genuine) short.le).eq_of_length short
    rw [same] at feeds leaves
    cases demands with
    | intro τ next stack observes alive =>
      exact ⟨p₀, (p, answer), feeds, leaves.imp
        (first.refrains own later (by simpa using dropped) observes alive)⟩

end Config

open Config in
/-- A fork does not come to ask for another one of its component: along every run from an empty
machine in which no panic drops a fork of the component in its replay, a step that a fork of it
replays fires no setter of the instance that is replayed, if the factory builds procedures whose steps
fire alike. The setters that the component hears of were handed out for slots, and once it has been
dropped with an instance it is not taken up again. -/
theorem forks_never_reenter {memory : K.Memory} {ambient : Bool} {code : Code K Unit}
    {t : List (Config K × Config K)} {c : Config K}
    (run : Run β (fun c => ¬ c.Abandons k ∧ c.Genuine k)
      (start { memory := memory, ambient := ambient } code) t c)
    (alike : ∀ y, c.state.place k = some y → β.FiresAlike y.factory)
    (dropped : ∀ p ∈ t, ¬ Revives k p) : ¬ c.Reenters k := by
  rintro ⟨σ, setter, v, next, e, later, rest⟩
  have calm := run.imp fun _ guard => guard.1
  obtain ⟨u, q, setter', value, y, inputs, prior, demands, filled, found, built, built'⟩ :=
    calm.demanded
  obtain ⟨x, p, present, feeds, leaves⟩ := calm.feeds rfl (built'.origin run)
  rw [State.history_of_found present] at filled
  obtain ⟨first, guard, follows, _, since⟩ := run.prior prior
  obtain ⟨w, slot⟩ := guard.2 setter' value demands
  have replays : x.history <+: setter'.before := by
    have whole : x.history <+: setter'.before ++ [.state value] := ⟨e :: later, filled.symm⟩
    refine List.prefix_of_prefix_length_le whole (List.prefix_append _ _) ?_
    have lengths := congrArg List.length filled
    simp only [Setter.forked, History.forked, List.length_append, List.length_cons,
      List.length_nil] at lengths
    omega
  obtain ⟨p', answer, feeds', refrains⟩ := (first.imp fun _ guard => guard.1).refrained demands
    (fun p mem => dropped p (prior.subset (List.mem_append_left _ mem)))
    (Built.origin (first.snoc guard follows) built).of_append replays slot
  obtain ⟨y', found', factory⟩ := (Run.append (.snoc .refl guard follows) since).factory found
  exact alike y' found' inputs _ _ _ p p' (factory ▸ feeds) (factory ▸ feeds')
    ⟨_, leaves.leaves, .fire setter v next rfl⟩ answer refrains

namespace Sketch

def Drawing.eager? (p : Drawing) : Option (Setter Picture) :=
  if p.label = .int 1 then p.setters.head? else none

def eager : Behaviour client where
  code
    | .resume p input =>
      match (p.fed input).eager? with
      | none => .done (p.resume input)
      | some setter => .call (.fire setter (.int 2)) fun _ => .done (p.resume input)
    | c => behaviour.code c

structure Drawing.Twins (i j : InstanceId) (p q : Drawing) : Prop where
  moves : p.moves = q.moves
  label : p.label = q.label
  length : p.setters.length = q.setters.length
  left : ∀ setter ∈ p.setters, setter.owner = i
  right : ∀ setter ∈ q.setters, setter.owner = j

namespace Drawing.Twins

variable {i j : InstanceId} {p q : Drawing} {h : History Picture}

theorem fed (twins : p.Twins i j q) (h : History Picture) :
    (p.fed (Resumption.next? i h)).Twins i j (q.fed (Resumption.next? j h)) := by
  obtain ⟨moves, label, length, left, right⟩ := twins
  rcases List.eq_nil_or_concat' h with rfl | ⟨h, e, rfl⟩
  · exact ⟨moves, label, length, left, right⟩
  · rw [Resumption.next?_push, Resumption.next?_push]
    cases e with
    | view a => exact ⟨moves, label, length, left, right⟩
    | yielded v => exact ⟨moves, rfl, length, left, right⟩
    | state v =>
      exact ⟨moves, rfl, congrArg (· + 1) length, List.forall_mem_cons.mpr ⟨rfl, left⟩,
        List.forall_mem_cons.mpr ⟨rfl, right⟩⟩

theorem resume (twins : p.Twins i j q) (h : History Picture) :
    (p.resume (Resumption.next? i h)).1.Twins i j (q.resume (Resumption.next? j h)).1 := by
  have fed := twins.fed h
  simp only [Drawing.resume, ← fed.moves]
  cases moves : (p.fed (Resumption.next? i h)).moves with
  | nil => exact fed
  | cons move rest => exact ⟨rfl, fed.label, fed.length, fed.left, fed.right⟩

theorem eager? (twins : p.Twins i j q) {setter : Setter Picture}
    (eager : p.eager? = some setter) : ∃ other, q.eager? = some other ∧ other.owner = j := by
  unfold Drawing.eager? at eager ⊢
  rw [← twins.label]
  split at eager
  · have some : q.setters ≠ [] := by
      have length := twins.length
      rintro none
      rw [none, List.length_nil, List.length_eq_zero_iff] at length
      rw [length] at eager
      cases eager
    rw [if_pos ‹_›, List.head?_eq_some_head some]
    exact ⟨_, rfl, twins.right _ (List.head_mem some)⟩
  · cases eager

end Drawing.Twins

theorem eager_fires {p : Drawing} {input : Option (Resumption Picture)} {i : InstanceId}
    {code : Code client (Shape.step.Answer client)}
    (left : (eager.code (.resume p input)).Leaves code) (fires : code.Fires i) :
    ∃ setter, (p.fed input).eager? = some setter := by
  cases some : (p.fed input).eager? with
  | some setter => exact ⟨setter, rfl⟩
  | none =>
    have silent : eager.code (.resume p input) = .done (p.resume input) := by
      simp only [eager, some]
    rw [silent] at left
    cases left.of_ended
    cases fires

theorem eager_leaves {p : Drawing} {input : Option (Resumption Picture)}
    {answer : Shape.step.Answer client}
    (left : (eager.code (.resume p input)).Leaves (.done answer)) : answer = p.resume input := by
  cases some : (p.fed input).eager? with
  | none =>
    simp only [eager, some] at left
    exact left.of_done
  | some setter =>
    simp only [eager, some] at left
    exact left.of_request

theorem twins_of_feeds {factory : Value → Drawing}
    (plain : ∀ inputs, (factory inputs).setters = []) {inputs : Value} {i j : InstanceId}
    {h : History client.Artifact} {p q : client.Procedure}
    (feeds : eager.Feeds (eager.Constructs factory inputs) i h p)
    (feeds' : eager.Feeds (eager.Constructs factory inputs) j h q) : p.Twins i j q := by
  induction feeds generalizing q with
  | made leaves =>
    generalize empty : ([] : History client.Artifact) = h at feeds'
    cases feeds' with
    | made leaves' =>
      obtain rfl := leaves.of_done
      obtain rfl := leaves'.of_done
      refine ⟨rfl, rfl, rfl, ?_, ?_⟩ <;> simp [plain]
    | fed => simp at empty
  | @fed h e p p' answer _ leaves _ ih =>
    generalize more : h ++ [e] = h' at feeds'
    cases feeds' with
    | made => simp at more
    | @fed h' e' q q' answer' feeds' leaves' =>
      obtain ⟨rfl, -⟩ := List.append_inj' more rfl
      have twins := (ih feeds').resume h
      rwa [← eager_leaves leaves, ← eager_leaves leaves'] at twins

theorem eager_alike {factory : Value → Drawing}
    (plain : ∀ inputs, (factory inputs).setters = []) : eager.FiresAlike factory := by
  rintro inputs i j h p q feeds feeds' ⟨code, left, fires⟩ answer refrains
  obtain ⟨setter, some⟩ := eager_fires left fires
  obtain ⟨other, some', own⟩ := ((twins_of_feeds plain feeds feeds').fed h).eager? some
  simp only [eager, some'] at refrains
  cases refrains.of_refused fun quiet => quiet (.fire (K := client) other _ _ own)

def eagerCode : Code client Unit :=
  .call (.newComponent
      (fun _ => { moves := [.hold (.int 0), .hold (.int 1), .show, .finish] }) () {}) fun k =>
    .call (.retain (.ofComponent k)) fun _ => .call (.render k (.int 0)) fun _ => .done ()

def eagerStart : Config client :=
  .start { memory := () } eagerCode

def unfired : Config client → Bool
  | ⟨_, _, .run (.panic _), _⟩ => false
  | ⟨_, _, .run (.call (.fire _ _) _), _⟩ => false
  | _ => true

theorem unfired_keeps (k : ComponentId) (c : Config client) (h : unfired c = true) :
    ¬ c.Abandons k ∧ c.Genuine k := by
  constructor
  · rintro ⟨⟩
    cases h
  · rintro setter v ⟨⟩
    cases h

def lives (k : ComponentId) (p : Config client × Config client) : Bool :=
  p.1.state.current k = none || p.1.state.componentAlive p.1.stack k ||
    !p.2.state.componentAlive p.2.stack k

theorem lives_keeps {k : ComponentId} {t : List (Config client × Config client)}
    (h : t.all (lives k) = true) : ∀ p ∈ t, ¬ Config.Revives k p := by
  rintro p mem ⟨there, dead, alive⟩
  have lives := List.all_eq_true.mp h p mem
  simp [Sketch.lives, there, dead, alive] at lives

theorem eager_fork_fires_once :
    (∃ σ answer e rest, Config.after eager 6 (Config.after eager 23 eagerStart) =
      ⟨.step, σ, .run (.done answer), .push (.replaying 1 e []) (.push (.adopting 0 1) rest)⟩) ∧
    ∀ n < 16, ¬ (Config.after eager n (Config.after eager 23 eagerStart)).Reenters 0 := by
  have first : Config.Run eager (fun c => ¬ c.Abandons 0 ∧ c.Genuine 0) eagerStart
      (Config.trail eager 22 eagerStart) (Config.after eager 22 eagerStart) :=
    .walk (unfired_keeps 0) 22 _ (by decide +kernel)
  obtain ⟨σ, next, stack, fires, slot⟩ : ∃ σ next stack, Config.after eager 22 eagerStart =
      ⟨.step, σ, .run (.call (.fire ⟨0, [.state (.int 0)]⟩ (.int 2)) next), stack⟩ ∧
      σ.history 0 = [.state (.int 0), .state (.int 1)] := ⟨_, _, _, rfl, rfl⟩
  have guard : ¬ (Config.after eager 22 eagerStart).Abandons 0 ∧
      (Config.after eager 22 eagerStart).Genuine 0 := by
    rw [fires]
    refine ⟨by rintro ⟨⟩, ?_⟩
    rintro setter v ⟨⟩
    exact ⟨.int 1, by simp [slot]⟩
  have fired := first.snoc (e := Config.after eager 23 eagerStart) guard (.step rfl)
  have calm : ∀ n < 16, ((Config.trail eager n (Config.after eager 23 eagerStart)).all
      fun p => unfired p.1) = true := by decide +kernel
  have held : ∀ n < 16, ((Config.trail eager 22 eagerStart ++ [(Config.after eager 22 eagerStart,
      Config.after eager 23 eagerStart)] ++ Config.trail eager n
        (Config.after eager 23 eagerStart)).all (lives 0)) = true := by decide +kernel
  refine ⟨⟨_, _, _, _, rfl⟩, fun n few => ?_⟩
  have since := Config.Run.walk (unfired_keeps 0) n _ (calm n few)
  refine forks_never_reenter (fired.append since) (fun y found => ?_) (lives_keeps (held n few))
  obtain ⟨y', found', factory⟩ := since.factory (k := 0) rfl
  obtain rfl := Option.some.inj (found.symm.trans found')
  rw [factory]
  exact eager_alike fun _ => rfl

end Sketch

end Resumable
