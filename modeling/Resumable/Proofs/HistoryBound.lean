import Resumable.Proofs.Reentry
import Resumable.Proofs.Settings

namespace Resumable

variable {K : Client} {β : Behaviour K} {i : InstanceId} {lost : Prop}

namespace Instance

def Bounded (x : Instance K) : Prop :=
  ∀ limit, x.settings.limit = some limit → x.history.length ≤ limit

def Roomy (x : Instance K) : Prop :=
  ∀ limit, x.settings.limit = some limit → x.history.length < limit

theorem roomy_iff {x : Instance K} : x.Roomy ↔ x.exhausted? = none := by
  rw [exhausted?, Option.filter_eq_none_iff]
  exact forall_congr' fun limit => imp_congr_right fun _ => by
    rw [decide_eq_true_eq, Nat.not_le, position]

end Instance

theorem Turn.grown {loses : Prop} {cut : SubscriptionId → Prop} {memos : MemoId → Memo}
    {x x' : Instance K} {as as' : Multiset Activity} {deed : Option (Deed K.Artifact)}
    (turn : Turn loses cut memos (some x) as deed (some x') as') (stands : x.Stands lost as) :
    (x'.history = x.history ∧
      (x'.status = .running → x.status = .running ∨ x.exhausted? = none)) ∨
    (x'.status ≠ .running ∧ (x.status = .running ∨ .replay ∈ as) ∧
      ∃ e, x'.history = x.history ++ [e]) := by
  cases turn with
  | stays status _ history => exact .inl ⟨history, fun running => .inl (status.symm.trans running)⟩
  | started _ room => exact .inl ⟨rfl, fun _ => .inr room⟩
  | terminated => exact .inl ⟨rfl, by rintro ⟨⟩⟩
  | refused => exact .inl ⟨rfl, by rintro ⟨⟩⟩
  | failed => exact .inl ⟨rfl, by rintro ⟨⟩⟩
  | rejected => exact .inl ⟨rfl, by rintro ⟨⟩⟩
  | diverged => exact .inl ⟨rfl, by rintro ⟨⟩⟩
  | completed alive a => exact .inr ⟨by rintro ⟨⟩, .inl (stands.of_alive alive).1.1, _, rfl⟩
  | recorded alive e => exact .inr ⟨by rintro ⟨⟩, .inl (stands.of_alive alive).1.1, e, rfl⟩
  | computed alive v => exact .inr ⟨by rintro ⟨⟩, .inl (stands.of_alive alive).1.1, _, rfl⟩
  | settled running _ v => exact .inr ⟨by rintro ⟨⟩, .inl running, _, rfl⟩
  | replayed e => exact .inr ⟨by rintro ⟨⟩, .inr (Multiset.mem_cons_self ..), e, rfl⟩
  | replayEnded e =>
    refine .inr ⟨by rintro ⟨⟩, .inr (Multiset.mem_cons_self ..), e, rfl⟩
  | replayCompleted a =>
    exact .inr ⟨by rintro ⟨⟩, .inr (Multiset.mem_cons_self ..), .view a, rfl⟩
  | _ => exact .inl ⟨rfl, .inl⟩

theorem Turn.unstarted {loses : Prop} {cut : SubscriptionId → Prop} {memos : MemoId → Memo}
    {x : Instance K} {as as' : Multiset Activity} {deed : Option (Deed K.Artifact)}
    (turn : Turn loses cut memos none as deed (some x) as') : x.status ≠ .running := by
  cases turn with
  | born newborn => exact newborn.status
  | bornReplaying _ status => exact fun running => absurd (status.symm.trans running) (by decide)

namespace Next

theorem replay_starts {σ τ : State K} {s : Shape} {stack : Stack K .result} {call : Call K s}
    {top : Stack K s} {e : Entry K.Artifact} {later : History K.Artifact}
    (begins : replay σ stack i (e :: later) = .ok ⟨s, τ, .call call, top⟩) : τ.history i = [] := by
  refine (?_ : (replay σ stack i (e :: later)).Holds fun d =>
    d = ⟨s, τ, .call call, top⟩ → τ.history i = []) _ begins rfl
  refine Holds.withInstance fun x _ found => ?_
  split
  · exact holds_give.mpr (by rintro ⟨⟩)
  · next fresh =>
    split
    · exact holds_give.mpr (by rintro ⟨⟩)
    · refine holds_call.mpr ?_
      rintro ⟨⟩
      have empty : x.history = [] := not_not.mp (not_or.mp fresh).1
      refine (State.history_of_found (x := x.lend) ?_).trans empty
      rw [State.instances_modifyInstance_self, found]
      rfl

end Next

namespace Config

variable {c d : Config K} {t u : List (Config K × Config K)} {G : Config K → Prop}
  {h : History K.Artifact} {x : Instance K} {memory : K.Memory} {ambient : Bool}
  {code : Code K Unit}

inductive Submits (i : InstanceId) (h : History K.Artifact) : Config K → Prop
  | intro {s : Shape} (σ : State K) (next : Shape.result.Answer K → Code K (s.Answer K))
    (stack : Stack K s) : Submits i h ⟨s, σ, .run (.call (.replay i h) next), stack⟩

/-- A fork has a procedure built, and its history is put into the next instance. -/
inductive Adopts (i : InstanceId) (k : ComponentId) (h : History K.Artifact) : Config K → Prop
  | intro (σ : State K) (p : K.Procedure) (rest : Stack K .unit) (next : σ.instances.length = i) :
    Adopts i k h ⟨.procedure, σ, .run (.done p), .push (.forking k h) rest⟩

def Restores (i : InstanceId) (h : History K.Artifact) (c : Config K) : Prop :=
  c.Submits i h ∨ ∃ k, c.Adopts i k h

inductive Fires (setter : Setter K.Artifact) (v : Value) : Config K → Prop
  | intro {s : Shape} (σ : State K) (next : Shape.unit.Answer K → Code K (s.Answer K))
    (stack : Stack K s) : Fires setter v ⟨s, σ, .run (.call (.fire setter v) next), stack⟩

theorem Run.restored {τ : State K} {p : K.Procedure} {input : Option (Resumption K.Artifact)}
    {e : Entry K.Artifact} {later : History K.Artifact} {rest : Stack K .result}
    (run : Run β G (start { memory := memory, ambient := ambient } code) t
      ⟨.step, τ, .call (.resume p input), .push (.replaying i e later) rest⟩) :
    ∃ q ∈ t, q.1.Restores i (τ.history i ++ e :: later) := by
  induction length : t.length using Nat.strong_induction_on generalizing t τ p input e later with
  | _ n earlier =>
    subst length
    obtain ⟨u, b, rfl, before, -, follows, triggers⟩ := run.sprung (a := .replay i e later rest) rfl
    generalize replay : Trigger.replay i e later rest = a at triggers
    cases triggers with
    | told tells begins => subst replay; cases begins
    | adopted => cases replay
    | rendered => cases replay
    | fired => cases replay
    | asked σ i' e' later' next stack =>
      cases replay
      have step := follows.step_eq (by rintro _ (_ | _) ⟨⟩)
      rw [step_request] at step
      refine ⟨_, List.mem_append_right u (List.mem_singleton_self _), .inl ?_⟩
      rw [Next.replay_starts step]
      exact .intro σ next stack
    | built σ k e' later' p' rest' =>
      cases replay
      have stands : Stands True σ.instances.length _ :=
        before.stands _
      refine ⟨_, List.mem_append_right u (List.mem_singleton_self _), .inr ⟨k, ?_⟩⟩
      rw [stands.history_made follows (List.getElem?_eq_none (le_refl _))]
      exact .intro σ p' rest' rfl
    | replayed σ i' e₀ next others p' effect rest' =>
      cases replay
      obtain ⟨x, p₀, v, τ', d, v', found, -, rfl, -, same, first⟩ := before.resuming rfl
      obtain ⟨q, mem, restores⟩ := earlier v.length (by simp) first rfl
      refine ⟨q, List.mem_append_left _ (List.mem_append_left _ mem), ?_⟩
      rw [history_replayed found follows, ← same, List.append_assoc]
      exact restores

theorem Stands.enters_replayed {e : Entry K.Artifact} (stands : c.Stands lost i)
    (enters : c.Enters i e) (replay : .replay ∈ c.underWay i) : ∃ σ later answer rest,
      c = ⟨.step, σ, .run (.done answer), .push (.replaying i e later) rest⟩ := by
  have other : ∀ {a : Activity}, a ∈ c.underWay i → a ≠ .replay → False := by
    intro a mem ne
    rw [stands.alone replay trivial] at mem
    exact ne (Multiset.mem_singleton.mp mem)
  cases enters with
  | recorded yields => exact (other yields.underWay (by simp)).elim
  | completed => exact (other (Stack.mem_underWay .refl rfl _) (by simp)).elim
  | computed => exact (other (Stack.mem_underWay .refl rfl _) (by simp)).elim
  | settled completes owner =>
    subst owner
    exact (other (completes.underWay ▸ Multiset.mem_cons_self ..) (by simp)).elim
  | replayed σ later p rest => exact ⟨σ, later, _, rest, rfl⟩
  | replayCompleted σ a b p rest => exact ⟨σ, [], _, rest, rfl⟩

theorem Run.replayed_prefix {σ : State K} {e : Entry K.Artifact} {later : History K.Artifact}
    {answer : Shape.step.Answer K} {rest : Stack K .result}
    (run : Run β G (start { memory := memory, ambient := ambient } code) t
      ⟨.step, σ, .run (.done answer), .push (.replaying i e later) rest⟩) :
    ∃ q ∈ t, ∃ h, q.1.Restores i h ∧ σ.history i ++ [e] <+: h := by
  obtain ⟨x, p, before, τ, d, after, found, -, rfl, -, same, first⟩ := run.resuming rfl
  obtain ⟨q, mem, restores⟩ := first.restored
  refine ⟨q, List.mem_append_left _ mem, _, restores, ?_⟩
  rw [State.history_of_found found, ← same]
  exact ⟨later, by simp⟩

theorem Run.kept_settings (run : Run β G c t d) (found : c.state.instances[i]? = some x) :
    ∃ x', d.state.instances[i]? = some x' ∧ x'.settings = x.settings := by
  have given := run.settled (.ofInstance i) x.settings (by rw [State.settings?, found]; rfl)
  exact Option.map_eq_some_iff.mp given

theorem Run.grown (run : Run β G (start { memory := memory, ambient := ambient } code) t c)
    (follows : Follows β c d) (found : d.state.instances[i]? = some x) :
    (x.status ≠ .running ∧ x.history = []) ∨
    ∃ y, c.state.instances[i]? = some y ∧ x.settings = y.settings ∧
      ((x.history = y.history ∧
        (x.status = .running → y.status = .running ∨ y.exhausted? = none)) ∨
      (x.status ≠ .running ∧ (y.status = .running ∨ .replay ∈ c.underWay i) ∧
        ∃ e, x.history = y.history ++ [e])) := by
  have stands : c.Stands True i := run.stands _
  have turn := follows_turn stands.absent follows
  rw [found] at turn
  cases there : c.state.instances[i]? with
  | none =>
    rw [there] at turn
    exact .inl ⟨turn.unstarted, turn.silent.2 x rfl⟩
  | some y =>
    rw [there] at turn
    have last : Run β (fun _ => True) c _ d := .snoc .refl trivial follows
    obtain ⟨x', found', settings⟩ := last.kept_settings there
    obtain rfl := Option.some.inj (found'.symm.trans found)
    exact .inr ⟨y, rfl, settings, turn.grown (stands.present y there)⟩

theorem Run.roomy (run : Run β G (start { memory := memory, ambient := ambient } code) t c)
    (found : c.state.instances[i]? = some x) (running : x.status = .running) : x.Roomy := by
  induction run generalizing x with
  | refl => cases found
  | snoc run guard follows ih =>
    rcases run.grown follows found with ⟨unstarted, -⟩ | ⟨y, there, settings, grown⟩
    · exact absurd running unstarted
    · rcases grown with ⟨history, before⟩ | ⟨halted, -⟩
      · have room : y.Roomy := (before running).elim (ih there) Instance.roomy_iff.mpr
        rwa [Instance.Roomy, settings, history]
      · exact absurd running halted

theorem Run.bounded (run : Run β G (start { memory := memory, ambient := ambient } code) t c)
    (found : c.state.instances[i]? = some x) :
    x.Bounded ∨ ∃ q ∈ t, ∃ h, q.1.Restores i h ∧ x.history <+: h := by
  induction run generalizing x with
  | refl => cases found
  | snoc run guard follows ih =>
    rcases run.grown follows found with ⟨-, empty⟩ | ⟨y, there, settings, grown⟩
    · left
      intro limit _
      rw [empty]
      exact Nat.zero_le limit
    · rcases grown with ⟨history, -⟩ | ⟨-, running | replay, e, more⟩
      · rcases ih there with bounded | ⟨q, mem, h, restores, first⟩
        · left
          rwa [Instance.Bounded, settings, history]
        · exact .inr ⟨q, List.mem_append_left _ mem, h, restores, history ▸ first⟩
      · left
        intro limit limited
        have room := run.roomy there running limit (settings ▸ limited)
        rw [more, List.length_append, List.length_singleton]
        exact room
      · right
        rcases follows_history follows i with same | ⟨e', enters, same⟩
        · rw [State.history_of_found found, State.history_of_found there, more] at same
          exact absurd same (by simp)
        · rw [State.history_of_found found, State.history_of_found there] at same
          obtain ⟨σ, later, answer, rest, rfl⟩ := (run.stands _).enters_replayed enters replay
          obtain ⟨q, mem, h, restores, first⟩ := run.replayed_prefix
          rw [State.history_of_found there, ← same] at first
          exact ⟨q, List.mem_append_left _ mem, h, restores, first⟩

theorem Follows.provides_settings {k : ComponentId} (follows : Follows β c d)
    (provides : c.Provides k i) : ∃ s, c.state.settings? (.ofComponent k) = some s ∧
      d.state.settings? (.ofInstance i) = some s := by
  obtain ⟨⟨p, founds⟩, rfl⟩ := provides
  have step := follows.step_eq (by rintro _ _ rfl; cases founds)
  cases founds with
  | mounting σ inputs rest =>
    rw [step_done] at step
    exact Next.finishMount_configures rest k inputs p d step
  | forking σ h rest =>
    rw [step_done] at step
    exact Next.finishBuild_configures rest k h p d step

theorem Run.adopts {k : ComponentId}
    (run : Run β G (start { memory := memory, ambient := ambient } code) t c)
    (adopts : c.Adopts i k h) : ∃ u q setter v, u ++ [q] <+: t ∧ q.1.Fires setter v ∧
      setter.forked v = h ∧ ∃ r ∈ u, r.1.Provides k setter.owner := by
  obtain ⟨σ, p, rest, -⟩ := adopts
  obtain ⟨call, before, υ, d, after, -, rfl, -, -, first⟩ := run.called rfl
  obtain ⟨u, b, rfl, earlier, -, follows, triggers⟩ := first.sprung (a := .fork k h) rfl
  cases triggers with
  | told tells begins =>
    cases begins
    obtain ⟨τ, source, others, stack, rfl, observers, -⟩ := earlier.heard.tells tells
    obtain ⟨j, rfl, r, mem, provides⟩ :=
      earlier.heard.made k source (by simp [State.Observes, observers])
    obtain ⟨u, b, rfl, -, -, fires, -⟩ := earlier.sprung (a := .forked j h) rfl
    obtain ⟨s, setter, v, next, stack, rfl, rfl, rfl, forked⟩ := fires.fired
    refine ⟨u, _, setter, v, (List.prefix_append _ _).trans (List.prefix_append _ _),
      .intro τ next stack, forked, r, ?_, provides⟩
    refine (List.mem_append.mp mem).resolve_right fun mem => ?_
    rw [List.mem_singleton.mp mem] at provides
    obtain ⟨⟨p, founds⟩, -⟩ := provides
    cases founds

/-- Clients keep to the limits: they put histories into instances that are within the limit of
these, and fire setters that were handed out for slots. -/
structure WithinLimits (c : Config K) : Prop where
  submits : ∀ i h s limit, c.Submits i h → c.state.settings? (.ofInstance i) = some s →
    s.limit = some limit → h.length ≤ limit
  genuine : ∀ setter v, c.Fires setter v →
    ∃ w, setter.before ++ [.state w] <+: c.state.history setter.owner

theorem settings_of_found (found : c.state.instances[i]? = some x) :
    c.state.settings? (.ofInstance i) = some x.settings := by
  rw [State.settings?, found]
  rfl

theorem Adopts.provides {k : ComponentId} (adopts : c.Adopts i k h) : c.Provides k i := by
  obtain ⟨σ, p, rest, next⟩ := adopts
  exact ⟨⟨p, .forking σ h rest⟩, next⟩

theorem Submits.eq_nil (submits : c.Submits i h) (follows : Follows β c d)
    (absent : c.state.instances[i]? = none) : h = [] := by
  obtain ⟨σ, next, stack⟩ := submits
  have step := follows.step_eq (by rintro _ (_ | _) ⟨⟩)
  rw [step_request] at step
  cases h with
  | nil => rfl
  | cons e later =>
    refine (Next.Holds.withInstance (P := fun _ => False) (fun y _ found => ?_) d step).elim
    exact absurd (absent.symm.trans found) (by simp)

theorem Run.within (run : Run β G (start { memory := memory, ambient := ambient } code) t c)
    (withinLimits : ∀ p ∈ t, p.1.WithinLimits) (found : c.state.instances[i]? = some x) : x.Bounded := by
  induction length : t.length using Nat.strong_induction_on generalizing t c i x with
  | _ n earlier =>
    subst length
    intro limit limited
    rcases run.bounded found with bounded | ⟨q, mem, h, restores, first⟩
    · exact bounded limit limited
    refine first.length_le.trans ?_
    obtain ⟨u, v, rfl⟩ := List.append_of_mem mem
    obtain ⟨before, guard, follows, since⟩ := run.split rfl
    rcases restores with submits | ⟨k, adopts⟩
    · cases there : q.1.state.instances[i]? with
      | none => simp [submits.eq_nil follows there]
      | some y =>
        have later := Run.append (.snoc .refl guard follows) since
        obtain ⟨x', found', settings⟩ := later.kept_settings there
        obtain rfl := Option.some.inj (found'.symm.trans found)
        exact (withinLimits q mem).submits i h y.settings limit submits (settings_of_found there)
          (settings ▸ limited)
    · obtain ⟨u', q', setter, w, prior, fires, rfl, r, made, provides⟩ := before.adopts adopts
      obtain ⟨fired, guard', follows', _, between⟩ := before.prior prior
      obtain ⟨u₁, u₂, rfl⟩ := List.append_of_mem made
      obtain ⟨-, guard'', follows'', after⟩ := fired.split rfl
      -- The owner of the setter and the new instance both have the settings of the component.
      obtain ⟨s, component, owner⟩ := follows''.provides_settings provides
      obtain ⟨s', component', fresh⟩ := follows.provides_settings adopts.provides
      have same : s' = s := by
        have later := (Run.append (.snoc .refl guard'' follows'') after).append
          (Run.append (.snoc .refl guard' follows') between)
        exact Option.some.inj (component'.symm.trans (later.settled _ s component))
      have settings : x.settings = s := by
        rw [← same]
        exact Option.some.inj ((settings_of_found found).symm.trans (since.settled _ s' fresh))
      obtain ⟨z, there, rfl⟩ := Option.map_eq_some_iff.mp (after.settled _ s owner)
      have within : z.Bounded := by
        refine earlier _ ?_ fired (fun p mem' => withinLimits p ?_) there rfl
        · have shorter := prior.length_le
          simp only [List.length_append, List.length_cons, List.length_nil] at shorter ⊢
          omega
        · exact List.mem_append_left _ (prior.subset (List.mem_append_left _ mem'))
      have mem' := List.mem_append_left (q :: v)
        (prior.subset (List.mem_append_right _ (List.mem_singleton_self q')))
      obtain ⟨w', slot⟩ := (withinLimits q' mem').genuine setter w fires
      have short := slot.length_le
      rw [State.history_of_found there, List.length_append, List.length_singleton] at short
      rw [Setter.forked, History.length_forked]
      exact short.trans (within limit (settings ▸ limited))

end Config

open Config in
/-- Along every run from an empty machine, no step, computation or settled await takes a history
past the limit of its instance: a history that is longer is the beginning of one that was put into
the instance, by a client or by a fork. A replay is not checked; as long as clients put in only
histories that are within the limits, and fire setters that were handed out for slots, the bound is
hard, forks included. An instance whose history has come to the limit or is past it fails when it is
driven. -/
theorem history_bound {memory : K.Memory} {ambient : Bool} {code : Code K Unit}
    {t : List (Config K × Config K)} {c : Config K} {x : Instance K} {limit : Nat}
    (run : Run β (fun _ => True) (start { memory := memory, ambient := ambient } code) t c)
    (found : c.state.instances[i]? = some x) (limited : x.settings.limit = some limit) :
    (x.history.length ≤ limit ∨ ∃ q ∈ t, ∃ h, q.1.Restores i h ∧ x.history <+: h) ∧
    ((∀ p ∈ t, p.1.WithinLimits) → x.history.length ≤ limit) ∧
    (∀ σ stack, c = ⟨.result, σ, .advance i, stack⟩ → stack.locksInstance i = false →
      x.status = .paused → limit ≤ x.history.length →
      c.step β = .ok ⟨.result, σ.modifyInstance i ({ · with status := .terminated }),
        .run (.done (.error (.historyLimit limit))), stack⟩) := by
  refine ⟨?_, fun withinLimits => run.within withinLimits found limit limited, ?_⟩
  · exact run.bounded found |>.imp_left fun bounded => bounded limit limited
  · rintro σ stack rfl unlocked paused past
    have exhausted : x.exhausted? = some limit := by
      rw [Instance.exhausted?, limited, Option.filter_some, Instance.position,
        if_pos (decide_eq_true past)]
    rw [step_advance, Next.startStep, Next.withInstance, unlocked, if_neg Bool.false_ne_true]
    simp only [show σ.instances[i]? = some x from found, paused, exhausted]
    rfl

namespace Sketch

def cramCode (limit : Nat) (h : History Picture) : Code client Unit :=
  .call .newMemo fun m =>
    .call (.newInstance { moves := [.hold (.int 1), .hold (.int 2), .hold (.int 3)] } m
      { limit := some limit }) fun i =>
      .call (.replay i h) fun _ =>
        .call (.proceed i) fun _ => .done ()

def crammed : Config client :=
  Config.after behaviour 11
    (.start { memory := () } (cramCode 1 [.state (.int 1), .state (.int 2)]))

def fitting : Config client :=
  Config.after behaviour 14 (.start { memory := () } (cramCode 2 [.state (.int 1)]))

def keepsLimits : Config client → Bool
  | ⟨_, σ, .run (.call (.replay i h) _), _⟩ =>
    (σ.settings? (.ofInstance i)).all fun s => s.limit.all (h.length ≤ ·)
  | ⟨_, _, .run (.call (.fire _ _) _), _⟩ => false
  | _ => true

theorem withinLimits_of_keepsLimits (c : Config client) (keeps : keepsLimits c = true) :
    c.WithinLimits where
  submits i h s limit submits given limited := by
    obtain ⟨σ, next, stack⟩ := submits
    rw [keepsLimits, given, Option.all_some, limited, Option.all_some] at keeps
    exact of_decide_eq_true keeps
  genuine setter v fires := by
    obtain ⟨σ, next, stack⟩ := fires
    cases keeps

/-- A replay has taken the one drawing past its limit, and driving it fails; the other one has come
to its limit and no further. -/
theorem crammed_history_bound :
    (∃ x, crammed.state.instances[0]? = some x ∧ x.settings.limit = some 1 ∧
      x.history.length = 2) ∧
    (∃ σ stack, crammed.step behaviour =
      .ok ⟨.result, σ, .run (.done (.error (.historyLimit 1))), stack⟩) ∧
    ∃ x, fitting.state.instances[0]? = some x ∧ x.settings.limit = some 2 ∧
      x.history.length ≤ 2 := by
  have run : Config.Run behaviour (fun _ => True) (.start { memory := () }
      (cramCode 1 [.state (.int 1), .state (.int 2)])) _ crammed :=
    .walk_all 11 _
  have withinLimits : Config.Run behaviour (fun _ => True) (.start { memory := () }
      (cramCode 2 [.state (.int 1)])) _ fitting :=
    .walk_all 14 _
  have keeps : ((Config.trail behaviour 14 (.start { memory := () }
      (cramCode 2 [.state (.int 1)]))).all fun p => keepsLimits p.1) = true := by
    decide +kernel
  obtain ⟨-, -, fails⟩ := history_bound run (i := 0) rfl rfl
  obtain ⟨-, within, -⟩ := history_bound withinLimits (i := 0) rfl rfl
  refine ⟨⟨_, rfl, rfl, rfl⟩, ⟨_, _, fails _ _ rfl (by decide +kernel) (by decide +kernel)
    (by decide +kernel)⟩, _, rfl, rfl, within fun p mem =>
      withinLimits_of_keepsLimits p.1 (List.all_eq_true.mp keeps p mem)⟩

end Sketch

end Resumable
