import Resumable.Proofs.Hearing
import Resumable.Proofs.Provenance
import Resumable.Proofs.Snapshots

namespace Resumable

variable {K : Client} {s : Shape} {β : Behaviour K} {i : InstanceId} {source : Source}
  {signal : Signal K.Artifact} {stack : Stack K .unit} {memory : K.Memory} {ambient : Bool}
  {code : Code K Unit}

namespace Config

variable {c d e : Config K} {t u w : List (Config K × Config K)} {G : Config K → Prop}

/-- Somebody who was told of a signal is busy with it. -/
def Occupied (source : Source) (signal : Signal K.Artifact) (stack : Stack K .unit) (c : Config K) :
    Prop :=
  ∃ left, (Stack.push (.emitting source left signal) stack).Rests c.stack ∧
    ∀ υ, c ≠ ⟨.unit, υ, .run (.done ()), .push (.emitting source left signal) stack⟩

theorem Run.undisturbed {σ : State K} {q : Config K × Config K}
    (run : Run β (fun c => ∀ υ result, c ≠ ⟨.unit, υ, .run (.ended result), stack⟩)
      ⟨.unit, σ, .emit source signal, stack⟩ w e) (mem : q ∈ w) :
    q.1.Occupied source signal stack ∨
      (∃ k, q.1.handed? stack.depth = some (.host k, signal)) ∨
      q.2.state = q.1.state ∧ ∀ υ other told above, q.2 ≠ ⟨.unit, υ, .emit other told, above⟩ := by
  obtain ⟨t₁, t₂, rfl⟩ := List.append_of_mem mem
  obtain ⟨before, unfinished, follows, -⟩ := run.split rfl
  obtain ⟨c, d⟩ := q
  dsimp only at before unfinished follows ⊢
  obtain ⟨left, -, spreads | ⟨υ, result, ended, -⟩⟩ := before.spread
  · rcases spreads.turn (β := β) with ⟨going, step, handed⟩ | ⟨-, rests, busy⟩
    · rw [follows.step_eq going] at step
      right
      cases left with
      | nil =>
        right
        cases step
        exact ⟨rfl, by rintro _ _ _ _ ⟨⟩⟩
      | cons o rest =>
        cases o with
        | host k => exact .inl ⟨k, handed⟩
        | client o =>
          right
          cases step
          exact ⟨rfl, by rintro _ _ _ _ ⟨⟩⟩
    · exact .inl ⟨left, rests, busy⟩
  · exact absurd ended (unfinished υ result)

theorem Closes.terminates (closes : c.Closes (.ofInstance i)) (follows : Follows β c d) :
    ∃ x, d.state.instances[i]? = some x ∧ x.Stopped := by
  cases closes with
  | stopped σ i next stack =>
    have step := follows.step_eq (by rintro τ (payload | ⟨⟩) ⟨⟩)
    rw [step_request] at step
    have stopped : (Next.serve σ (.push (.waiting next) stack) (.terminate i)).Holds fun d =>
        ∃ x, d.state.instances[i]? = some x ∧ x.Stopped := by
      refine Next.Holds.withInstance fun x _ found => Next.holds_give.mpr ?_
      refine ⟨x.terminate, ?_, rfl, rfl, rfl⟩
      rw [State.instances_modifyInstance_self, found]
      rfl
    exact stopped d step

/-- The procedure of an instance is fed a slot, for a step or for a replay. -/
inductive Feeds (i : InstanceId) (cell : Cell K.Artifact) : Config K → Prop
  | resumes (σ : State K) (p : K.Procedure) {frame : Frame K .step .result} (rest : Stack K .result)
    (own : frame.resumed? = some i) :
    Feeds i cell ⟨.step, σ, .call (.resume p (some (.cell cell))), .push frame rest⟩

theorem Run.slot {cell : Cell K.Artifact}
    (run : Run β G (start { memory := memory, ambient := ambient } code) t c)
    (feeds : c.Feeds i cell) : cell.setter.owner = i ∧
      c.state.history i = cell.setter.before ++ [.state cell.value] := by
  cases feeds with
  | resumes σ p rest own =>
    obtain ⟨same, q, input, call, fed, -⟩ := run.fed own
    cases call
    dsimp only at fed ⊢
    generalize σ.history i = h at fed ⊢
    cases fed with
    | state h v => exact ⟨rfl, rfl⟩

theorem Run.snapshot {cell : Cell K.Artifact} {H : Config K → Prop}
    (run : Run β G (start { memory := memory, ambient := ambient } code) t c)
    (feeds : c.Feeds i cell) (later : Run β H c u d) :
    (d.state.history i)[cell.setter.position]? = some (.state cell.value) ∧
      ∀ v, cell.setter.forked v =
        (d.state.history i).take cell.setter.position ++ [.state v] := by
  obtain ⟨more, grown⟩ := later.history_prefix i
  rw [(run.slot feeds).2] at grown
  rw [← grown]
  unfold Setter.position
  constructor
  · simp
  · intro v
    rw [List.append_assoc, List.take_left]
    rfl

theorem Run.stopped {q : Config K × Config K}
    (run : Run β G (start { memory := memory, ambient := ambient } code) t d) (mem : q ∈ t)
    (stops : q.1.Closes (.ofInstance i) ∨ ∃ x, q.2.state.instances[i]? = some x ∧ x.Stopped) :
    ∃ x, d.state.instances[i]? = some x ∧ x.Stopped := by
  obtain ⟨t₁, t₂, rfl⟩ := List.append_of_mem mem
  obtain ⟨before, guard, follows, later⟩ := run.split rfl
  have stands : q.2.Stands True i :=
    (before.snoc guard follows).stands _
  have stopped : ∃ x, q.2.state.instances[i]? = some x ∧ x.Stopped := by
    rcases stops with closes | stopped
    · exact closes.terminates follows
    · exact stopped
  obtain ⟨x, found, stopped⟩ := stopped
  exact stands.stays_stopped later found stopped

variable {σ : State K} {setter : Setter K.Artifact} {v : Value} {rest : Stack K s}
  {next : Shape.unit.Answer K → Code K (s.Answer K)}

theorem unheard_of_gone (gone : σ.sourceAlive (.push (.waiting next) rest) setter.owner = false) :
    after β 1 ⟨s, σ, .run (.call (.fire setter v) next), rest⟩ =
        ⟨.unit, σ, .run (.done ()), .push (.waiting next) rest⟩ ∧
      (trail β 1 ⟨s, σ, .run (.call (.fire setter v) next), rest⟩).filterMap (·.1.handing?) = [] := by
  have step : step β ⟨s, σ, .run (.call (.fire setter v) next), rest⟩ =
      .ok ⟨.unit, σ, .run (.done ()), .push (.waiting next) rest⟩ := by
    rw [step_request, Next.serve, Next.fire, if_neg (by simp [gone])]
    rfl
  simp only [after, trail, step]
  exact ⟨trivial, rfl⟩

theorem unheard_of_stopped {x : Instance K} (found : σ.instances[setter.owner]? = some x)
    (stopped : x.Stopped) (alive : σ.sourceAlive (.push (.waiting next) rest) setter.owner = true) :
    after β 2 ⟨s, σ, .run (.call (.fire setter v) next), rest⟩ =
        ⟨.unit, σ, .run (.done ()), .push (.waiting next) rest⟩ ∧
      (trail β 2 ⟨s, σ, .run (.call (.fire setter v) next), rest⟩).filterMap (·.1.handing?) = [] := by
  have fires : step β ⟨s, σ, .run (.call (.fire setter v) next), rest⟩ = .ok ⟨.unit, σ,
      .emit (.ofInstance setter.owner) (.forked (setter.forked v)), .push (.waiting next) rest⟩ := by
    rw [step_request, Next.serve, Next.fire, if_pos alive]
    rfl
  have nobody : (σ.registry (.ofInstance setter.owner)).observers = [] := by
    simp [State.registry, found, Registry.observers, stopped.entries]
  have delivers : step β ⟨.unit, σ, .emit (.ofInstance setter.owner) (.forked (setter.forked v)),
      .push (.waiting next) rest⟩ = .ok ⟨.unit, σ, .run (.done ()), .push (.waiting next) rest⟩ := by
    rw [step_emit, nobody]
    rfl
  simp only [after, trail, fires, delivers]
  exact ⟨trivial, by simp [handing?, nobody]⟩

theorem fire_unheard (deaf : (∃ x, σ.instances[setter.owner]? = some x ∧ x.Stopped) ∨
      σ.sourceAlive (.push (.waiting next) rest) setter.owner = false) :
    ∃ n, after β n ⟨s, σ, .run (.call (.fire setter v) next), rest⟩ =
        ⟨.unit, σ, .run (.done ()), .push (.waiting next) rest⟩ ∧
      (trail β n ⟨s, σ, .run (.call (.fire setter v) next), rest⟩).filterMap (·.1.handing?) = [] := by
  by_cases alive : σ.sourceAlive (.push (.waiting next) rest) setter.owner = true
  · rcases deaf with ⟨x, found, stopped⟩ | gone
    · exact ⟨2, unheard_of_stopped found stopped alive⟩
    · exact absurd alive (by simp [gone])
  · exact ⟨1, unheard_of_gone (Bool.eq_false_iff.mpr alive)⟩

end Config

open Config in
/-- Setters keep their snapshot. Whoever drives or replays an instance, a slot that is fed to its
procedure is an entry of the instance, and stays that. At whatever later moment its setter is fired,
while the instance is held or in use or one of its signals is on its way, the history of that moment
up to the slot, with the new value in it, goes to the observers of the moment, and nothing is changed
but by them. After the instance was stopped, or when it is gone, the request is answered in the same
state and nobody hears of it. -/
theorem setters_keep_their_snapshot {memory : K.Memory} {ambient : Bool} {code : Code K Unit}
    {G H : Config K → Prop} {t u : List (Config K × Config K)} {c : Config K} {cell : Cell K.Artifact}
    {τ : State K} {v : Value} {stack : Stack K s} {next : Shape.unit.Answer K → Code K (s.Answer K)}
    (run : Run β G (start { memory := memory, ambient := ambient } code) t c)
    (feeds : c.Feeds i cell)
    (later : Run β H c u ⟨s, τ, .run (.call (.fire cell.setter v) next), stack⟩) :
    (c.state.history i)[cell.setter.position]? = some (.state cell.value) ∧
    (τ.history i)[cell.setter.position]? = some (.state cell.value) ∧
    (τ.sourceAlive (.push (.waiting next) stack) i = true → ∃ h,
      h = (τ.history i).take cell.setter.position ++ [.state v] ∧
      step β ⟨s, τ, .run (.call (.fire cell.setter v) next), stack⟩ =
        .ok ⟨.unit, τ, .emit (.ofInstance i) (.forked h), .push (.waiting next) stack⟩ ∧
      ∀ w e, Run β (fun c => ∀ υ result,
            c ≠ ⟨.unit, υ, .run (.ended result), .push (.waiting next) stack⟩)
          ⟨.unit, τ, .emit (.ofInstance i) (.forked h), .push (.waiting next) stack⟩ w e →
        w.filterMap (·.1.handed? (stack.depth + 1)) <+:
          (τ.registry (.ofInstance i)).observers.map (·, .forked h) ∧
        (∀ υ, e = ⟨.unit, υ, .run (.done ()), .push (.waiting next) stack⟩ →
          w.filterMap (·.1.handed? (stack.depth + 1)) =
            (τ.registry (.ofInstance i)).observers.map (·, .forked h)) ∧
        ∀ q ∈ w, q.1.Occupied (.ofInstance i) (.forked h) (.push (.waiting next) stack) ∨
          (∃ k, q.1.handed? (stack.depth + 1) = some (.host k, .forked h)) ∨
          q.2.state = q.1.state ∧ ∀ υ other told above, q.2 ≠ ⟨.unit, υ, .emit other told, above⟩) ∧
    ((∃ q ∈ t ++ u, q.1.Closes (.ofInstance i) ∨
        ∃ x, q.2.state.instances[i]? = some x ∧ x.Stopped) ∨
        τ.sourceAlive (.push (.waiting next) stack) i = false → ∃ n,
      after β n ⟨s, τ, .run (.call (.fire cell.setter v) next), stack⟩ =
        ⟨.unit, τ, .run (.done ()), .push (.waiting next) stack⟩ ∧
      (trail β n ⟨s, τ, .run (.call (.fire cell.setter v) next), stack⟩).filterMap
        (·.1.handing?) = []) := by
  have since := later.imp (H := fun _ => True) fun _ _ => trivial
  have whole := (run.imp fun _ _ => trivial).append since
  obtain ⟨owner, -⟩ := run.slot feeds
  obtain ⟨recorded, forks⟩ := run.snapshot feeds later
  refine ⟨(run.snapshot feeds (.refl (G := G))).1, recorded, ?_, ?_⟩
  · intro alive
    refine ⟨_, rfl, ?_, ?_⟩
    · rw [step_request, Next.serve, Next.fire, owner, if_pos alive, forks v]
      rfl
    · intro w e delivery
      have delivers := delivery.delivers
      exact ⟨delivers.begun, delivers.finished, fun q mem => delivery.undisturbed mem⟩
  · intro deaf
    apply fire_unheard
    rw [owner]
    rcases deaf with ⟨q, mem, stops⟩ | gone
    · exact .inl (whole.stopped mem stops)
    · exact .inr gone

namespace Sketch

def parting : Behaviour client where
  code
    | .notice _ (.forked [.state (.int 5)]) =>
      .call (.release (.ofInstance 0)) fun _ =>
        .call (.fire ⟨0, []⟩ (.int 7)) fun _ => .done ()
    | c => behaviour.code c

def partingCode : Code client Unit :=
  .call .newMemo fun m =>
    .call (.newInstance { moves := [.hold (.int 1), .finish] } m {}) fun i =>
      .call (.retain (.ofInstance i)) fun _ =>
        .call (.subscribe (.ofInstance i) ()) fun _ =>
          .call (.proceed i) fun _ =>
            .call (.fire ⟨i, []⟩ (.int 5)) fun _ =>
              .call (.fire ⟨i, []⟩ (.int 9)) fun _ => .done ()

def filling : Config client :=
  Config.after parting 17 (.start { memory := () } partingCode)

def fired : Fin 3 → Config client
  | 0 => Config.after parting 8 filling
  | 1 => Config.after parting 13 filling
  | 2 => Config.after parting 20 filling

theorem filling_run : Config.Run parting (fun _ => True) (.start { memory := () } partingCode)
    (Config.trail parting 17 (.start { memory := () } partingCode)) filling :=
  .walk_all 17 _

theorem filling_feeds : filling.Feeds 0 ⟨.int 1, ⟨0, []⟩⟩ :=
  .resumes _ _ _ rfl

/-- The observer hears what is signalled on its own account, though it has dropped the instance: a
signal of the instance is still on its way. -/
theorem dropped_setter_heard : ¬ ∀ t c cell, Config.Run parting (fun _ => True)
      (.start { memory := () } partingCode) t c → c.Feeds 0 cell →
    ∀ (s : Shape) u τ v next (stack : Stack client s), Config.Run parting (fun _ => True) c u
        ⟨s, τ, .run (.call (.fire cell.setter v) next), stack⟩ →
      τ.instanceAlive (.push (.waiting next) stack) 0 = false →
      ∀ w e, Config.Run parting (fun c => ∀ υ result,
          c ≠ ⟨.unit, υ, .run (.ended result), .push (.waiting next) stack⟩)
        ⟨s, τ, .run (.call (.fire cell.setter v) next), stack⟩ w e →
        w.filterMap (·.2.noticed? (stack.depth + 1)) = [] := by
  intro claim
  have unheard := claim _ _ _ filling_run filling_feeds _ _ _ _ _ _ (.walk_all 13 filling)
    (show _ = false by decide +kernel) _ _
    (.walk (@unended_of_pending (.push (.waiting _) _)) 4 (fired 1) (by decide +kernel))
  have heard : ((Config.trail parting 4 (fired 1)).filterMap (·.2.noticed? 3)).length = 1 := by
    decide +kernel
  rw [show (Config.trail parting 4 (fired 1)).filterMap (·.2.noticed? 3) = [] from unheard] at heard
  cases heard

/-- Both signals that start reach the observer, with the entries before the slot and another value in
it. When the delivery is over the instance is gone, and nobody hears the setter. -/
theorem dropped_setter_snapshots :
    (Config.trail parting 11 (fired 0)).filterMap (·.1.handed? 1) =
      [(.client (), .forked [.state (.int 5)])] ∧
    (Config.trail parting 4 (fired 1)).filterMap (·.1.handed? 3) =
      [(.client (), .forked [.state (.int 7)])] ∧
    ∃ n, Config.after parting n (fired 2) = Config.after parting 1 (fired 2) ∧
      (Config.trail parting n (fired 2)).filterMap (·.1.handing?) = [] := by
  obtain ⟨-, -, held, -⟩ := setters_keep_their_snapshot filling_run filling_feeds
    (.walk_all 8 filling)
  obtain ⟨-, -, parted, -⟩ := setters_keep_their_snapshot filling_run filling_feeds
    (.walk_all 13 filling)
  obtain ⟨-, -, -, gone⟩ := setters_keep_their_snapshot filling_run filling_feeds
    (.walk_all 20 filling)
  refine ⟨?_, ?_, ?_⟩
  · obtain ⟨_, rfl, -, delivers⟩ := held (show _ = true by decide +kernel)
    have delivery := delivers _ _
      (.walk (@unended_of_pending (.push (.waiting _) _)) 10 _ (by decide +kernel))
    exact (delivery.2.1 _ rfl).trans rfl
  · obtain ⟨_, rfl, -, delivers⟩ := parted (show _ = true by decide +kernel)
    have delivery := delivers _ _
      (.walk (@unended_of_pending (.push (.waiting _) _)) 3 _ (by decide +kernel))
    exact (delivery.2.1 _ rfl).trans rfl
  · exact gone (.inr (show _ = false by decide +kernel))

end Sketch

end Resumable
