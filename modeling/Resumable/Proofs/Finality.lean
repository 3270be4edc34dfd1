import Resumable.Proofs.Condition
import Resumable.Proofs.Growth
import Resumable.Proofs.Sketch

namespace Resumable

variable {K : Client} {β : Behaviour K} {i : InstanceId} {x : Instance K} {lost : Prop}

theorem Turn.final {loses : Prop} {cut : SubscriptionId → Prop} {memos : MemoId → Memo}
    {o' : Option (Instance K)}
    {as as' : Multiset Activity} {deed : Option (Deed K.Artifact)}
    (turn : Turn loses cut memos (some x) as deed o' as') (stands : x.Stands lost as)
    (ended : x.status = .terminated) :
    ∃ x', o' = some x' ∧ x'.status = .terminated ∧ x'.history = x.history ∧ as' ≤ as ∧
      deed = none ∧ (x.registry.Later cut x'.registry ∨ x'.registry = x.registry.close) := by
  have paused : x.status ≠ .paused := by simp [ended]
  have running : x.status ≠ .running := by simp [ended]
  cases turn with
  | stays status _ history later =>
    exact ⟨_, rfl, status.trans ended, history, le_refl _, rfl, .inl later⟩
  | terminated => exact ⟨_, rfl, rfl, rfl, le_refl _, rfl, .inr rfl⟩
  | dropped => exact ⟨_, rfl, ended, rfl, Multiset.le_cons_self .., rfl, .inl .same⟩
  | overtaken => exact ⟨_, rfl, ended, rfl, Multiset.le_cons_self .., rfl, .inl .same⟩
  | outdated => exact ⟨_, rfl, ended, rfl, Multiset.le_cons_self .., rfl, .inl .same⟩
  | ignored => exact ⟨_, rfl, ended, rfl, Multiset.le_cons_self .., rfl, .inl .same⟩
  | refused status => exact absurd status paused
  | started status => exact absurd status paused
  | replayStarted status => exact absurd status paused
  | settled status => exact absurd status running
  | rejected status => exact absurd status running
  | failed alive => exact absurd ended alive
  | completed alive => exact absurd ended alive
  | recorded alive => exact absurd ended alive
  | computing alive => exact absurd ended alive
  | launching alive => exact absurd ended alive
  | computed alive => exact absurd ended alive
  -- A launch or a replay locks its instance, so that it has not been terminated.
  | launched => exact absurd ended (stands.of_locks trivial).1.alive
  | replayed => exact absurd ended (stands.of_locks trivial).1.alive
  | replayEnded => exact absurd ended (stands.of_locks trivial).1.alive
  | replayCompleted => exact absurd ended (stands.of_locks trivial).1.alive
  | diverged => exact absurd ended (stands.of_locks trivial).1.alive

namespace Config

variable {c d : Config K} {u : List (Config K × Config K)} {G : Config K → Prop}

theorem Stands.final (stands : c.Stands lost i) (may : ∀ c, G c → c.Loses i → lost)
    (run : Run β G c u d) (found : c.state.instances[i]? = some x) (ended : x.status = .terminated) :
    ∃ x', d.state.instances[i]? = some x' ∧ x'.status = .terminated ∧ x'.history = x.history ∧
      d.underWay i ≤ c.underWay i ∧ ∀ p ∈ u, p.2.deed? i = none := by
  induction run with
  | refl => exact ⟨x, found, ended, rfl, le_refl _, by simp⟩
  | @snoc u d e run guard follows ih =>
    obtain ⟨y, found', ended', history, fewer, none⟩ := ih
    have stands' := stands.run may run
    have turn := follows_turn stands'.absent follows
    rw [found'] at turn
    obtain ⟨z, found'', ended'', history', fewer', deed, -⟩ :=
      turn.final (stands'.present y found') ended'
    refine ⟨z, found'', ended'', history'.trans history, fewer'.trans fewer, fun p mem => ?_⟩
    rcases List.mem_append.mp mem with mem | mem
    · exact none p mem
    · rw [List.mem_singleton.mp mem]
      exact deed

variable {σ : State K} {stack : Stack K .result} {n : Position}

theorem overtaken_returns (found : σ.instances[i]? = some x) (ended : x.status = .terminated)
    (answer : Shape.step.Answer K) :
    step β ⟨.step, σ, .run (.done answer), .push (.stepping i n) stack⟩ =
      .ok ⟨.result, σ.modifyInstance i (·.takeBack answer.1), .run (.done (.ok ())), stack⟩ := by
  have status : (x.takeBack answer.1).status = .terminated := ended
  rw [step_done]
  simp only [Next.resume, Next.finishStep, State.instances_modifyInstance_self, found,
    Option.map_some, status, if_true]
  rfl

theorem outdated_returns (found : σ.instances[i]? = some x) (ended : x.status = .terminated)
    (keys : List Value) (v : Value) :
    step β ⟨.value, σ, .run (.done v), .push (.computing i n keys) stack⟩ =
      .ok ⟨.result, σ.remember x.memo n keys v, .run (.done (.ok ())), stack⟩ := by
  rw [step_done]
  simp only [Next.resume, Next.finishComputation, found, ended, if_true]
  rfl

end Config

open Config in
/-- Along every run from an empty machine, with whatever panics and however nested, the history of
an instance is only added to. From when an instance is terminated on, it stays so and its history
stays what it is, none of its steps, producers and signals begins, and what is under way for it only
ends; what the step or the computation answers that is cut short thereby leaves the history alone,
and the drive around it ends without a fault. -/
theorem append_only_and_final {memory : K.Memory} {ambient : Bool} {code : Code K Unit}
    {t u : List (Config K × Config K)} {c d : Config K}
    (before : Run β (fun _ => True) (start { memory := memory, ambient := ambient } code) t c)
    (later : Run β (fun _ => True) c u d) (found : c.state.instances[i]? = some x) :
    ∃ x', d.state.instances[i]? = some x' ∧ x.history <+: x'.history ∧
      (x.status = .terminated →
        x'.status = .terminated ∧ x'.history = x.history ∧ d.underWay i ≤ c.underWay i ∧
        (∀ p ∈ u, p.2.deed? i = none) ∧
        (∀ σ n stack answer, d = ⟨.step, σ, .run (.done answer), .push (.stepping i n) stack⟩ →
          ∃ σ', d.step β = .ok ⟨.result, σ', .run (.done (.ok ())), stack⟩ ∧
            (σ'.instances[i]?).map (·.history) = some x.history) ∧
        (∀ σ n keys stack v, d = ⟨.value, σ, .run (.done v), .push (.computing i n keys) stack⟩ →
          ∃ σ', d.step β = .ok ⟨.result, σ', .run (.done (.ok ())), stack⟩ ∧
            (σ'.instances[i]?).map (·.history) = some x.history)) := by
  obtain ⟨x', found', grows⟩ := later.grows i x found
  refine ⟨x', found', grows.history, fun ended => ?_⟩
  have stands : c.Stands True i := stands_start.run (fun _ _ _ => trivial) before
  obtain ⟨y, same, ended', history, fewer, none⟩ :=
    stands.final (fun _ _ _ => trivial) later found ended
  obtain rfl : x' = y := Option.some.inj (found'.symm.trans same)
  refine ⟨ended', history, fewer, none, ?_, ?_⟩
  · rintro σ n stack answer rfl
    refine ⟨_, overtaken_returns found' ended' answer, ?_⟩
    rw [State.instances_modifyInstance_self, found', ← history]
    rfl
  · rintro σ n keys stack v rfl
    refine ⟨_, outdated_returns found' ended' keys v, ?_⟩
    rw [← history]
    exact congrArg (Option.map _) found'

namespace Sketch

def quitting : Behaviour client where
  code
    | .resume p input => .call (.terminate 0) fun _ => .done (p.resume input)
    | c => behaviour.code c

def quitCode : Code client Unit :=
  .call .newMemo fun m =>
    .call (.newInstance { moves := [.hold (.int 1), .finish] } m {}) fun i =>
      .call (.proceed i) fun _ => .done ()

def quit : Config client :=
  Config.after quitting 8 (.start { memory := () } quitCode)

def answering : Config client :=
  Config.after quitting 1 quit

theorem answering_final : ∃ x, answering.state.instances[0]? = some x ∧
    x.status = .terminated ∧ x.history = [] ∧ ∃ σ stack,
      answering.step quitting = .ok ⟨.result, σ, .run (.done (.ok ())), stack⟩ ∧
      (σ.instances[0]?).map (·.history) = some [] := by
  have before : Config.Run quitting (fun _ => True) (.start { memory := () } quitCode) _ quit :=
    .walk_all 8 _
  have later : Config.Run quitting (fun _ => True) quit _ answering :=
    .walk_all 1 _
  obtain ⟨x, found, -, ended⟩ := append_only_and_final before later (i := 0) rfl
  obtain ⟨status, history, -, -, left, -⟩ := ended (by decide +kernel)
  obtain ⟨σ, step, kept⟩ := left _ 0 _ _ rfl
  exact ⟨x, found, status, history, σ, _, step, kept⟩

end Sketch

end Resumable
