import Resumable.Proofs.Finality
import Resumable.Proofs.Provenance

namespace Resumable

variable {K : Client} {β : Behaviour K} {fresh : K.Procedure → Prop} {i : InstanceId} {lost : Prop}
  {p q : K.Procedure}

/-- What procedures of some kind become, as those of an instance, when they are fed a history: one
that has answered to it goes on with an entry that meets its answer. -/
inductive Behaviour.Feeds (β : Behaviour K) (fresh : K.Procedure → Prop) (i : InstanceId) :
    History K.Artifact → K.Procedure → Prop
  | made {p : K.Procedure} (made : fresh p) : Feeds β fresh i [] p
  | fed {h : History K.Artifact} {e : Entry K.Artifact} {p q : K.Procedure}
    {answer : Except Fault K.Yielded} (feeds : Feeds β fresh i h p)
    (leaves : (β.code (.resume p (Resumption.next? i h))).Leaves (.done (q, answer)))
    (meets : e.Meets answer) : Feeds β fresh i (h ++ [e]) q

inductive Instance.Fed (β : Behaviour K) (fresh : K.Procedure → Prop) (i : InstanceId)
    (x : Instance K) (p : K.Procedure) : Prop
  | even (idle : x.status ≠ .running) (feeds : β.Feeds fresh i x.history p) : Fed β fresh i x p
  | ahead {p₀ : K.Procedure} {answer : Except Fault K.Yielded} (begun : x.status ≠ .paused)
    (feeds : β.Feeds fresh i x.history p₀)
    (leaves : (β.code (.resume p₀ (Resumption.next? i x.history))).Leaves (.done (p, answer)))
    (yields : x.status = .running → ∀ v, (Entry.yielded v).Meets answer) : Fed β fresh i x p

namespace Instance.Fed

variable {x x' : Instance K} {e : Entry K.Artifact} {p₀ : K.Procedure}
  {answer : Except Fault K.Yielded}

theorem congr (fed : x.Fed β fresh i p) (status : x'.status = x.status)
    (history : x'.history = x.history) : x'.Fed β fresh i p := by
  cases fed with
  | even idle feeds => exact .even (status ▸ idle) (history ▸ feeds)
  | ahead begun feeds leaves yields =>
    rw [← history] at feeds leaves
    exact .ahead (status ▸ begun) feeds leaves (status ▸ yields)

theorem ended (fed : x.Fed β fresh i p) (history : x'.history = x.history)
    (ended : x'.status = .terminated) : x'.Fed β fresh i p := by
  cases fed with
  | even _ feeds => exact .even (by simp [ended]) (history ▸ feeds)
  | ahead _ feeds leaves =>
    rw [← history] at feeds leaves
    exact .ahead (by simp [ended]) feeds leaves (by simp [ended])

theorem of_paused (fed : x.Fed β fresh i p) (paused : x.status = .paused) :
    β.Feeds fresh i x.history p := by
  cases fed with
  | even _ feeds => exact feeds
  | ahead begun => exact absurd paused begun

theorem push (feeds : β.Feeds fresh i x.history p₀)
    (leaves : (β.code (.resume p₀ (Resumption.next? i x.history))).Leaves (.done (p, answer)))
    (meets : e.Meets answer) (history : x'.history = x.history ++ [e])
    (idle : x'.status ≠ .running) : x'.Fed β fresh i p :=
  .even idle (history ▸ feeds.fed leaves meets)

theorem late (feeds : β.Feeds fresh i x.history p₀)
    (leaves : (β.code (.resume p₀ (Resumption.next? i x.history))).Leaves (.done (p, answer)))
    (history : x'.history = x.history) (ended : x'.status = .terminated) : x'.Fed β fresh i p := by
  rw [← history] at feeds leaves
  exact .ahead (by simp [ended]) feeds leaves (by simp [ended])

theorem yielded (fed : x.Fed β fresh i p) (running : x.status = .running) (v : Value) :
    (x.record (.yielded v)).Fed β fresh i p := by
  cases fed with
  | even idle => exact absurd running idle
  | ahead _ feeds leaves yields => exact push feeds leaves (yields running v) rfl (by rintro ⟨⟩)

end Instance.Fed

section Turn

variable {loses : Prop} {cut : SubscriptionId → Prop} {memos : MemoId → Memo} {x x' : Instance K}
  {as as' : Multiset Activity} {deed : Option (Deed K.Artifact)}

theorem Turn.fed (turn : Turn loses cut memos (some x) as deed (some x') as')
    (stands : x.Stands lost as) (had : x.procedure ≠ none) (has : x'.procedure ≠ none)
    (fed : x.Fed β fresh i p) : x'.Fed β fresh i p := by
  cases turn with
  | stays status _ history => exact fed.congr status history
  | terminated => exact fed.ended rfl rfl
  | dropped => exact fed
  | refused => exact fed.ended rfl rfl
  | started => exact absurd rfl has
  | overtaken => exact fed.congr rfl rfl
  | failed alive => exact absurd (stands.of_alive alive).1.2.1 had
  | completed alive => exact absurd (stands.of_alive alive).1.2.1 had
  | recorded alive => exact absurd (stands.of_alive alive).1.2.1 had
  | computing alive => exact absurd (stands.of_alive alive).1.2.1 had
  | launching alive => exact absurd (stands.of_alive alive).1.2.1 had
  | outdated => exact fed
  | computed alive v => exact fed.yielded (stands.of_alive alive).1.1 v
  | launched => exact fed
  | ignored => exact fed
  | settled running _ v => exact fed.yielded running v
  | rejected => exact fed.ended rfl rfl
  | replayStarted => exact absurd rfl has
  | replayed => exact absurd (stands.of_locks trivial).1.2 had
  | replayEnded => exact absurd (stands.of_locks trivial).1.2 had
  | replayCompleted => exact absurd (stands.of_locks trivial).1.2 had
  | diverged => exact absurd (stands.of_locks trivial).1.2 had

theorem Turn.resumed_paused (turn : Turn loses cut memos (some x) as deed (some x') as')
    (stands : x.Stands lost as) (had : x.procedure ≠ none) (resumed : deed = some .resume) :
    x.status = .paused ∧ x'.history = x.history := by
  cases turn with
  | started paused => exact ⟨paused, rfl⟩
  | replayStarted paused => exact ⟨paused, rfl⟩
  | replayed => exact absurd (stands.of_locks trivial).1.2 had
  | _ => cases resumed

theorem Turn.made (turn : Turn loses cut memos none as deed (some x) as') :
    x.history = [] ∧ (x.procedure ≠ none → x.status ≠ .running) := by
  cases turn with
  | born newborn => exact ⟨newborn.history, fun _ => newborn.status⟩
  | bornReplaying newborn => exact ⟨newborn.history, fun has => absurd rfl has⟩

end Turn

namespace Config

variable {c d : Config K} {t : List (Config K × Config K)} {G : Config K → Prop} {k : ComponentId}
  {x : Instance K} {σ : State K} {n : Position} {rest : Stack K .result} {p₀ : K.Procedure}
  {answer : Except Fault K.Yielded}

theorem Makes.absent (makes : c.Makes i p) : c.state.instances[i]? = none := by
  cases makes with
  | client σ next => exact List.getElem?_eq_none (Nat.le_of_eq next.symm)
  | host _ next => exact List.getElem?_eq_none (Nat.le_of_eq next.symm)

theorem Hands.deed? (hands : d.Hands i p) : d.deed? i = some .resume := by
  cases hands <;> exact if_pos rfl

theorem hands_of_resumed {frame : Frame K .step .result} (own : frame.resumed? = some i)
    (p : K.Procedure) (input : Option (Resumption K.Artifact)) :
    Hands i p ⟨.step, σ, .call (.resume p input), .push frame rest⟩ := by
  cases frame with
  | stepping j n =>
    cases own
    exact .step σ input n rest
  | replaying j e later =>
    cases own
    exact .replay σ input e later rest
  | waiting => cases own

theorem Stands.history_made (stands : c.Stands lost i) (follows : Follows β c d)
    (absent : c.state.instances[i]? = none) : d.state.history i = [] := by
  have turn := follows_turn stands.absent follows
  rw [absent] at turn
  cases found : d.state.instances[i]? with
  | none => simp [State.history, found]
  | some x =>
    rw [found] at turn
    exact (State.history_of_found found).trans turn.made.1

structure FedHistory (β : Behaviour K) (fresh : K.Procedure → Prop) (i : InstanceId)
    (c : Config K) : Prop where
  stored : ∀ x p, c.state.instances[i]? = some x → x.procedure = some p → x.Fed β fresh i p
  handed : ∀ p, c.Hands i p → β.Feeds fresh i (c.state.history i) p

theorem FedHistory.kept (fedHistory : c.FedHistory β fresh i) (stands : c.Stands lost i)
    (follows : Follows β c d) (stores : c.state.Stores i p) :
    (∀ x', d.state.instances[i]? = some x' → x'.procedure = some p → x'.Fed β fresh i p) ∧
    (d.Hands i p → β.Feeds fresh i (d.state.history i) p) := by
  obtain ⟨x, found, had⟩ := stores
  have fed := fedHistory.stored x p found had
  have there : x.procedure ≠ none := by simp [had]
  have turn := follows_turn stands.absent follows
  obtain ⟨x', found', -⟩ := follows.grows i x found
  rw [found, found'] at turn
  refine ⟨fun y same has => ?_, fun hands => ?_⟩
  · obtain rfl := Option.some.inj (found'.symm.trans same)
    exact turn.fed (stands.present x found) there (by simp [has]) fed
  · obtain ⟨paused, history⟩ := turn.resumed_paused (stands.present x found) there hands.deed?
    rw [State.history_of_found found', history]
    exact fed.of_paused paused

theorem FedHistory.made (stands : c.Stands lost i) (follows : Follows β c d) (makes : c.Makes i p)
    (made : d.state.instances[i]? ≠ none → fresh p) :
    (∀ x', d.state.instances[i]? = some x' → x'.procedure = some p → x'.Fed β fresh i p) ∧
    (d.Hands i p → β.Feeds fresh i (d.state.history i) p) := by
  have turn := follows_turn stands.absent follows
  rw [makes.absent] at turn
  refine ⟨fun x' found' has => ?_, fun hands => ?_⟩
  · rw [found'] at turn
    obtain ⟨history, idle⟩ := turn.made
    exact .even (idle (by simp [has])) (history ▸ .made (made (by simp [found'])))
  · rw [stands.history_made follows makes.absent]
    refine .made (made fun none => ?_)
    rw [none] at turn
    exact absurd (turn.of_absent.1.symm.trans hands.deed?) (by rintro ⟨⟩)

theorem FedHistory.stepped (stands : Stands lost i
      ⟨.step, σ, .run (.done (p, answer)), .push (.stepping i n) rest⟩)
    (found : σ.instances[i]? = some x) (feeds : β.Feeds fresh i x.history p₀)
    (leaves : (β.code (.resume p₀ (Resumption.next? i x.history))).Leaves (.done (p, answer)))
    (follows : Follows β ⟨.step, σ, .run (.done (p, answer)), .push (.stepping i n) rest⟩ d) :
    (∀ x', d.state.instances[i]? = some x' → x'.Fed β fresh i p) ∧ ¬ d.Hands i p := by
  have step := follows.step_eq (by rintro _ _ ⟨⟩)
  have there : ∀ {f : Instance K → Instance K} {x' : Instance K},
      ((σ.modifyInstance i (·.takeBack p)).modifyInstance i f).instances[i]? = some x' →
      f (x.takeBack p) = x' := by
    intro f x' found'
    simpa [State.instances_modifyInstance_self, found] using found'
  have same : ∀ {x' : Instance K},
      (σ.modifyInstance i (·.takeBack p)).instances[i]? = some x' → x.takeBack p = x' :=
    fun found' => there (f := id) (by simpa [State.modifyInstance] using found')
  by_cases ended : x.status = .terminated
  · rw [overtaken_returns found ended] at step
    cases step
    refine ⟨fun x' found' => ?_, by rintro ⟨⟩⟩
    obtain rfl := same found'
    exact .late feeds leaves rfl ended
  · have suits : x.Suits (.step n) :=
      (stands.present x found).suits (Stack.mem_underWay .refl rfl _) ended
    -- What the step asked for is under way, and yields a value.
    have pending : ∀ {effect : Effect K.Artifact K.Producer K.Computation},
        answer = .ok (.effect effect) →
        (∀ v, (Entry.yielded v : Entry K.Artifact).recordedBy effect.kind = true) →
        (x.takeBack p).Fed β fresh i p := by
      rintro effect rfl fits
      exact .ahead (by simp [Instance.takeBack, suits.1]) feeds leaves fun _ v => .effect (fits v)
    rw [step_done] at step
    cases Next.finishStep_interprets n found ended d step with
    | failed fault =>
      refine ⟨fun x' found' => ?_, by rintro ⟨⟩⟩
      obtain rfl := there found'
      exact .late feeds leaves rfl rfl
    | completed a =>
      refine ⟨fun x' found' => ?_, by rintro ⟨⟩⟩
      obtain rfl := there found'
      exact .push feeds leaves (.complete a a) rfl (by rintro ⟨⟩)
    | recorded records =>
      refine ⟨fun x' found' => ?_, by rintro ⟨⟩⟩
      obtain rfl := there found'
      exact .push feeds leaves (.effect records.recordedBy) rfl (by rintro ⟨⟩)
    | computing =>
      refine ⟨fun x' found' => ?_, by rintro ⟨⟩⟩
      obtain rfl := same found'
      exact pending rfl fun _ => rfl
    | launching =>
      refine ⟨fun x' found' => ?_, by rintro ⟨⟩⟩
      obtain rfl := same found'
      exact pending rfl fun _ => rfl
    | stranded =>
      refine ⟨fun x' found' => ?_, by rintro ⟨⟩⟩
      obtain rfl := there found'
      exact .late feeds leaves rfl rfl

theorem FedHistory.replayed {e : Entry K.Artifact} {later : History K.Artifact}
    (stands : Stands lost i
      ⟨.step, σ, .run (.done (p, answer)), .push (.replaying i e later) rest⟩)
    (found : σ.instances[i]? = some x) (feeds : β.Feeds fresh i x.history p₀)
    (leaves : (β.code (.resume p₀ (Resumption.next? i x.history))).Leaves (.done (p, answer)))
    (follows : Follows β
      ⟨.step, σ, .run (.done (p, answer)), .push (.replaying i e later) rest⟩ d) :
    (∀ x', d.state.instances[i]? = some x' → x'.procedure ≠ none → x'.Fed β fresh i p) ∧
    (d.Hands i p → β.Feeds fresh i (d.state.history i) p) := by
  have step := follows.step_eq (by rintro _ _ ⟨⟩)
  have suits : x.Suits .replay :=
    (stands.present x found).suits_of_locks (Stack.mem_underWay .refl rfl _) trivial
  have there : ∀ {f : Instance K → Instance K} {x' : Instance K},
      (σ.modifyInstance i f).instances[i]? = some x' → f x = x' := by
    intro f x' found'
    simpa [State.instances_modifyInstance_self, found] using found'
  rw [step_done] at step
  cases Next.finishReplayed_replays e later found d step with
  | failed fault =>
    refine ⟨fun x' found' _ => ?_, by rintro ⟨⟩⟩
    obtain rfl := there found'
    exact .late feeds leaves rfl rfl
  | diverged yielded divergence =>
    refine ⟨fun x' found' _ => ?_, by rintro ⟨⟩⟩
    obtain rfl := there found'
    exact .late feeds leaves rfl rfl
  | @completed a b entry last =>
    refine ⟨fun x' found' _ => ?_, by rintro ⟨⟩⟩
    obtain rfl := there found'
    exact .push feeds leaves (.complete a b) rfl (by rintro ⟨⟩)
  | ended fits last =>
    refine ⟨fun x' found' _ => ?_, by rintro ⟨⟩⟩
    rw [State.modifyInstance_modifyInstance] at found'
    obtain rfl := there found'
    exact .push feeds leaves (.effect fits) rfl (by rintro ⟨⟩)
  | resumed fits more input =>
    refine ⟨fun x' found' has => ?_, fun _ => ?_⟩
    · obtain rfl := there found'
      exact absurd suits.2 has
    · rw [State.history_of_found (x := x.record e)
        (by rw [State.instances_modifyInstance_self, found]; rfl)]
      exact feeds.fed leaves (.effect fits)

variable {memory : K.Memory} {ambient : Bool} {code : Code K Unit}

def Origin (fresh : K.Procedure → Prop) (i : InstanceId) (t : List (Config K × Config K)) : Prop :=
  ∀ q ∈ t, ∀ p, q.1.Makes i p → q.2.state.instances[i]? ≠ none → fresh p

theorem Origin.of_append {u v : List (Config K × Config K)} (origin : Origin fresh i (u ++ v)) :
    Origin fresh i u :=
  fun q mem => origin q (List.mem_append_left _ mem)

theorem Run.feeds_of {frame : Frame K .step .result} {code' : Code K (Shape.step.Answer K)}
    (run : Run β G (start { memory := memory, ambient := ambient } code) t
      ⟨.step, σ, .run code', .push frame rest⟩) (own : frame.resumed? = some i)
    (origin : Origin fresh i t)
    (earlier : ∀ u e, u.length < t.length → Origin fresh i u →
      Run β G (start { memory := memory, ambient := ambient } code) u e →
      e.FedHistory β fresh i) :
    ∃ x p₀, σ.instances[i]? = some x ∧ β.Feeds fresh i x.history p₀ ∧
      (β.code (.resume p₀ (Resumption.next? i x.history))).LeavesBy
        (Ran t (.push frame rest)) code' := by
  obtain ⟨x, p₀, before, τ, d, after, found, leaves, rfl, -, same, first⟩ := run.resuming own
  have fedHistory := earlier before _ (by simp) origin.of_append first
  exact ⟨x, p₀, found, same ▸ fedHistory.handed p₀ (hands_of_resumed own p₀ _), leaves⟩

theorem Run.fedHistory (run : Run β G (start { memory := memory, ambient := ambient } code) t c)
    (origin : Origin fresh i t) : c.FedHistory β fresh i := by
  induction length : t.length using Nat.strong_induction_on generalizing t c with
  | _ n earlier =>
    subst length
    cases run with
    | refl => exact ⟨by rintro x p ⟨⟩, by rintro _ ⟨⟩⟩
    | @snoc t b _ run guard follows =>
      have shorter : t.length < (t ++ [(b, c)]).length := by simp
      have before : b.FedHistory β fresh i := earlier t.length shorter run origin.of_append rfl
      have stands : b.Stands True i := run.stands _
      have earlier' : ∀ u e, u.length < t.length → Origin fresh i u →
          Run β G (start { memory := memory, ambient := ambient } code) u e →
          e.FedHistory β fresh i := fun u e less origin run =>
        earlier u.length (less.trans shorter) run origin rfl
      have made : ∀ p, b.Makes i p → c.state.instances[i]? ≠ none → fresh p :=
        origin (b, c) (List.mem_append_right _ (List.mem_singleton_self _))
      -- A procedure stays with its instance, comes back to it, or has just been made.
      have arises : ∀ p, b.state.Stores i p ∨ b.GivesBack i p ∨ b.Makes i p →
          (∀ x, c.state.instances[i]? = some x → x.procedure = some p → x.Fed β fresh i p) ∧
          (c.Hands i p → β.Feeds fresh i (c.state.history i) p) := by
        rintro p (stores | back | makes)
        · exact before.kept stands follows stores
        · cases back with
          | step σ n answer rest =>
            obtain ⟨x, p₀, found, feeds, leaves⟩ := run.feeds_of rfl origin.of_append earlier'
            obtain ⟨stored, none⟩ :=
              FedHistory.stepped stands found feeds leaves.leaves follows
            exact ⟨fun x' found' _ => stored x' found', fun hands => absurd hands none⟩
          | replay σ e later answer rest =>
            obtain ⟨x, p₀, found, feeds, leaves⟩ := run.feeds_of rfl origin.of_append earlier'
            obtain ⟨stored, handed⟩ :=
              FedHistory.replayed stands found feeds leaves.leaves follows
            exact ⟨fun x' found' has => stored x' found' (by simp [has]), handed⟩
        · exact FedHistory.made stands follows makes (made p makes)
      exact ⟨fun x p found has => (arises p (follows_stores follows ⟨x, found, has⟩)).1 x found has,
        fun p hands => (arises p (follows_hands follows hands)).2 hands⟩

theorem Run.feeds {frame : Frame K .step .result} {code' : Code K (Shape.step.Answer K)}
    (run : Run β G (start { memory := memory, ambient := ambient } code) t
      ⟨.step, σ, .run code', .push frame rest⟩) (own : frame.resumed? = some i)
    (origin : Origin fresh i t) :
    ∃ x p₀, σ.instances[i]? = some x ∧ β.Feeds fresh i x.history p₀ ∧
      (β.code (.resume p₀ (Resumption.next? i x.history))).LeavesBy
        (Ran t (.push frame rest)) code' :=
  run.feeds_of own origin fun _ _ _ origin run => run.fedHistory origin

end Config

end Resumable
