import Resumable.Proofs.Events
import Resumable.Proofs.Settlement
import Resumable.Proofs.Transit

namespace Resumable

variable {K : Client} {β : Behaviour K} {i : InstanceId} {lost : Prop}

/-- How an instance stands behind a signal of its own: the entry is in the history already, and the
status is that of what comes next. -/
def Instance.Mirrors (x x' : Instance K) : Signal K.Artifact → Prop
  | .ready => (∃ e, x'.history = x.history ++ [e]) ∧ x'.status = .paused
  | .done => (∃ a, x'.history = x.history ++ [.view a]) ∧ x'.status = .terminated
  | .rejected _ => x'.history = x.history ∧ x'.status = .terminated
  | .forked _ => False

theorem Turn.silent {loses : Prop} {cut : SubscriptionId → Prop} {memos : MemoId → Memo}
    {o' : Option (Instance K)} {as as' : Multiset Activity} {deed : Option (Deed K.Artifact)}
    (turn : Turn loses cut memos none as deed o' as') :
    (∀ signal, deed ≠ some (.tell signal)) ∧ ∀ x', o' = some x' → x'.history = [] := by
  cases turn with
  | absent => exact ⟨by rintro _ ⟨⟩, by rintro _ ⟨⟩⟩
  | born newborn => exact ⟨by rintro _ ⟨⟩, by rintro _ ⟨⟩; exact newborn.history⟩
  | bornReplaying newborn => exact ⟨by rintro _ ⟨⟩, by rintro _ ⟨⟩; exact newborn.history⟩

theorem Turn.mirrors {loses : Prop} {cut : SubscriptionId → Prop} {memos : MemoId → Memo}
    {x x' : Instance K} {as as' : Multiset Activity} {deed : Option (Deed K.Artifact)}
    (turn : Turn loses cut memos (some x) as deed (some x') as') (stands : x.Stands lost as) :
    (∃ signal, deed = some (.tell signal) ∧ .replay ∉ as ∧ x.status ≠ .terminated ∧
      x.Mirrors x' signal) ∨
    ((∀ signal, deed ≠ some (.tell signal)) ∧
      (x'.history = x.history ∨ .replay ∈ as ∧ ∃ e, x'.history = x.history ++ [e])) := by
  have other : ∀ {a : Activity} {as : Multiset Activity}, x.Stands lost (a ::ₘ as) →
      x.status ≠ .terminated → a ≠ .replay → .replay ∉ a ::ₘ as := by
    intro a as stands alive ne mem
    obtain ⟨-, rfl⟩ := stands.of_alive alive
    exact ne (Multiset.mem_singleton.mp mem).symm
  cases turn with
  | completed alive a =>
    exact .inl ⟨.done, rfl, other stands alive (by simp), alive, ⟨a, rfl⟩, rfl⟩
  | recorded alive e =>
    exact .inl ⟨.ready, rfl, other stands alive (by simp), alive, ⟨e, rfl⟩, rfl⟩
  | computed alive v =>
    exact .inl ⟨.ready, rfl, other stands alive (by simp), alive, ⟨_, rfl⟩, rfl⟩
  | settled running _ v =>
    have alive : x.status ≠ .terminated := by simp [running]
    exact .inl ⟨.ready, rfl, other stands alive (by simp), alive, ⟨_, rfl⟩, rfl⟩
  | rejected running _ failure =>
    have alive : x.status ≠ .terminated := by simp [running]
    exact .inl ⟨_, rfl, other stands alive (by simp), alive, rfl, rfl⟩
  | stays _ _ history => exact .inr ⟨by rintro _ ⟨⟩, .inl history⟩
  | replayed e => exact .inr ⟨by rintro _ ⟨⟩, .inr ⟨Multiset.mem_cons_self .., e, rfl⟩⟩
  | replayEnded e => exact .inr ⟨by rintro _ ⟨⟩, .inr ⟨Multiset.mem_cons_self .., e, rfl⟩⟩
  | replayCompleted a => exact .inr ⟨by rintro _ ⟨⟩, .inr ⟨Multiset.mem_cons_self .., .view a, rfl⟩⟩
  | _ => exact .inr ⟨by rintro _ ⟨⟩, .inl rfl⟩

namespace Config

variable {c d : Config K} {t : List (Config K × Config K)}

/-- The signal, other than on behalf of a setter, that an instance starts. -/
def signal? (i : InstanceId) (c : Config K) : Option (Signal K.Artifact) :=
  match c.deed? i with
  | some (.tell signal) => some signal
  | _ => none

def signals (i : InstanceId) (t : List (Config K × Config K)) : List (Signal K.Artifact) :=
  t.filterMap fun p => p.2.signal? i

def entries (i : InstanceId) (c : Config K) : Nat :=
  ((c.state.instances[i]?).map (·.history.length)).getD 0

def closes (i : InstanceId) : Config K → Bool
  | ⟨.step, _, .run (.done (_, .ok (.complete _))), .push (.stepping j _) _⟩ => j = i
  | _ => false

/-- The await of an instance that is there and not terminated has failed. -/
def refusal? (i : InstanceId) : Config K → Option (Position × Failure)
  | ⟨.progress, σ, .run (.done (.ready (.error message))), .push (.polling task) stack⟩ =>
    if task.owner = i ∧ σ.instanceAlive stack i ∧ σ.status? i ≠ some .terminated then
      some (task.position, .failed message)
    else none
  | ⟨.progress, σ, .run (.panic payload), .push (.polling task) stack⟩ =>
    if task.owner = i ∧ σ.instanceAlive stack i ∧ σ.status? i ≠ some .terminated then
      some (task.position, .panicked payload)
    else none
  | _ => none

/-- The signal that a step of the machine calls for, told from the history of an instance. -/
def due (i : InstanceId) (c d : Config K) : Option (Signal K.Artifact) :=
  if .replay ∈ c.underWay i then none
  else if c.entries i < d.entries i then
    if c.closes i then some .done else some .ready
  else (c.refusal? i).map fun (n, failure) => .rejected (.producer n failure)

theorem Completes.not_closes {stack : Stack K .unit} {task : Task K}
    {outcome : Except Failure Value} (completes : c.Completes stack task outcome) :
    c.closes i = false := by
  cases completes <;> rfl

theorem Announces.closes_iff {signal : Signal K.Artifact} (announces : c.Announces i signal) :
    c.closes i = true ↔ signal = .done := by
  cases announces with
  | completed => simp [closes]
  | settled completes => simp [completes.not_closes]
  | rejected completes => simp [completes.not_closes]
  | _ => simp [closes]

theorem Completes.refusal? {stack : Stack K .unit} {task : Task K} {failure : Failure}
    (completes : c.Completes stack task (.error failure))
    (held : c.state.instanceAlive stack task.owner = true)
    (alive : c.state.status? task.owner ≠ some .terminated) :
    c.refusal? task.owner = some (task.position, failure) := by
  generalize outcome : Except.error failure = o at completes
  cases completes with
  | answered σ r =>
    cases r with
    | ok v => cases outcome
    | error message =>
      cases outcome
      exact if_pos ⟨rfl, held, alive⟩
  | panicked σ payload =>
    cases outcome
    exact if_pos ⟨rfl, held, alive⟩

theorem completes_of_refusal? {n : Position} {failure : Failure}
    (refused : c.refusal? i = some (n, failure)) :
    ∃ stack task, c.Completes stack task (.error failure) ∧ task.owner = i ∧ task.position = n ∧
      c.state.instanceAlive stack i = true ∧ c.state.status? i ≠ some .terminated := by
  unfold Config.refusal? at refused
  split at refused
  · next σ message task stack =>
    obtain ⟨⟨owner, held, alive⟩, same⟩ := Option.ite_none_right_eq_some.mp refused
    cases same
    exact ⟨stack, task, .answered σ (.error message), owner, rfl, held, alive⟩
  · next σ payload task stack =>
    obtain ⟨⟨owner, held, alive⟩, same⟩ := Option.ite_none_right_eq_some.mp refused
    cases same
    exact ⟨stack, task, .panicked σ payload, owner, rfl, held, alive⟩
  · cases refused

theorem signal?_eq {signal : Signal K.Artifact} (told : d.deed? i = some (.tell signal)) :
    d.signal? i = some signal := by
  simp [signal?, told]

theorem of_signal? {signal : Signal K.Artifact} (told : d.signal? i = some signal) :
    d.deed? i = some (.tell signal) := by
  unfold signal? at told
  split at told
  · next deed =>
    rw [deed, Option.some.inj told]
  · cases told

theorem signal?_eq_none (quiet : ∀ signal, d.deed? i ≠ some (.tell signal)) :
    d.signal? i = none :=
  Option.eq_none_iff_forall_ne_some.mpr fun signal told => quiet signal (of_signal? told)

theorem Stands.refused (stands : c.Stands lost i) (follows : Follows β c d) {n : Position}
    {failure : Failure} (refused : c.refusal? i = some (n, failure)) :
    d.deed? i = some (.tell (.rejected (.producer n failure))) := by
  obtain ⟨stack, task, completes, rfl, rfl, held, alive⟩ := completes_of_refusal? refused
  obtain ⟨x, found⟩ : ∃ x, c.state.instances[task.owner]? = some x := by
    refine Option.ne_none_iff_exists'.mp fun none => ?_
    have idle := stands.absent none
    rw [completes.underWay] at idle
    exact Multiset.cons_ne_zero idle
  have status : x.status ≠ .terminated := by simpa [State.status?, found] using alive
  have step := completes.step_eq follows
  rw [completes.settled stands found held status] at step
  cases step
  exact if_pos rfl

theorem Stands.refusal? (stands : c.Stands lost i) (follows : Follows β c d) {fault : Fault}
    (told : d.deed? i = some (.tell (.rejected fault))) {x : Instance K}
    (found : c.state.instances[i]? = some x) (alive : x.status ≠ .terminated) :
    ∃ n failure, fault = .producer n failure ∧ c.refusal? i = some (n, failure) := by
  generalize same : Signal.rejected fault = signal at told
  cases follows_signal follows told with
  | @rejected _ stack task failure completes owner =>
    cases same
    subst owner
    refine ⟨task.position, failure, rfl, completes.refusal? ?_ ?_⟩
    · by_contra dead
      have step := completes.step_eq follows
      rw [completes.ignored stands found (.inl (by simpa using dead))] at step
      cases step
      cases told
    · simpa [State.status?, found] using alive
  | _ => cases same

theorem Stands.entries_le (stands : c.Stands lost i) (follows : Follows β c d) :
    d.entries i ≤ c.entries i + 1 := by
  have turn := follows_turn stands.absent follows
  cases found : c.state.instances[i]? with
  | none =>
    rw [found] at turn
    cases found' : d.state.instances[i]? with
    | none => simp [entries, found']
    | some x' => simp [entries, found', turn.silent.2 x' found']
  | some x =>
    obtain ⟨x', found', -⟩ := follows.grows i x found
    rw [found, found'] at turn
    simp only [entries, found, found', Option.map_some, Option.getD_some]
    rcases turn.mirrors (stands.present x found) with
      ⟨signal, -, -, -, mirrors⟩ | ⟨-, same | ⟨-, e, same⟩⟩
    · cases signal with
      | ready =>
        obtain ⟨⟨e, history⟩, -⟩ := mirrors
        simp [history]
      | done =>
        obtain ⟨⟨a, history⟩, -⟩ := mirrors
        simp [history]
      | rejected fault => simp [mirrors.1]
      | forked h => exact mirrors.elim
    · simp [same]
    · simp [same]

theorem Stands.mirrors (stands : c.Stands lost i) (follows : Follows β c d)
    {signal : Signal K.Artifact} (told : d.signal? i = some signal) :
    ∃ x x', c.state.instances[i]? = some x ∧ d.state.instances[i]? = some x' ∧
      x.status ≠ .terminated ∧ x.Mirrors x' signal := by
  have turn := follows_turn stands.absent follows
  have deed := of_signal? told
  cases found : c.state.instances[i]? with
  | none =>
    rw [found] at turn
    exact absurd deed (turn.silent.1 signal)
  | some x =>
    obtain ⟨x', found', -⟩ := follows.grows i x found
    rw [found, found'] at turn
    rcases turn.mirrors (stands.present x found) with
      ⟨signal', told', -, alive, mirrors⟩ | ⟨quiet, -⟩
    · obtain rfl : signal' = signal := by
        rw [deed] at told'
        cases told'
        rfl
      exact ⟨x, x', rfl, found', alive, mirrors⟩
    · exact absurd deed (quiet signal)

/-- What an instance signals in one step is what its history calls for. -/
theorem Stands.signal? (stands : c.Stands lost i) (follows : Follows β c d) :
    d.signal? i = due i c d := by
  have turn := follows_turn stands.absent follows
  cases found : c.state.instances[i]? with
  | none =>
    rw [found] at turn
    obtain ⟨quiet, empty⟩ := turn.silent
    have before : c.entries i = 0 := by simp [entries, found]
    have after : d.entries i = 0 := by
      cases found' : d.state.instances[i]? with
      | none => simp [entries, found']
      | some x' => simp [entries, found', empty x' found']
    rw [signal?_eq_none quiet, due, stands.absent found, if_neg (Multiset.notMem_zero _), before,
      after, if_neg (Nat.lt_irrefl 0)]
    cases refused : c.refusal? i with
    | none => rfl
    | some failed => exact absurd (stands.refused follows refused) (quiet _)
  | some x =>
    rw [found] at turn
    obtain ⟨x', found', -⟩ := follows.grows i x found
    rw [found'] at turn
    have before : c.entries i = x.history.length := by simp [entries, found]
    have after : d.entries i = x'.history.length := by simp [entries, found']
    rcases turn.mirrors (stands.present x found) with
      ⟨signal, told, other, alive, mirrors⟩ | ⟨quiet, same⟩
    · have announces := follows_signal follows told
      rw [signal?_eq told, due, if_neg other, before, after]
      cases signal with
      | ready =>
        obtain ⟨⟨e, history⟩, -⟩ := mirrors
        have open' : c.closes i = false := by simpa using announces.closes_iff
        simp [history, open']
      | done =>
        obtain ⟨⟨a, history⟩, -⟩ := mirrors
        simp [history, announces.closes_iff.mpr rfl]
      | rejected fault =>
        obtain ⟨n, failure, rfl, refused⟩ := stands.refusal? follows told found alive
        simp [mirrors.1, refused]
      | forked h => exact mirrors.elim
    · rw [signal?_eq_none quiet, due]
      split
      · rfl
      · next idle =>
        have history := same.resolve_right fun replay => idle replay.1
        cases refused : c.refusal? i with
        | none => simp [before, after, history]
        | some failed => exact absurd (stands.refused follows refused) (quiet _)

end Config

open Config in
/-- Along every run from an empty machine, however its operations are nested: what an instance
signals by itself is, one for one and in order, that it is ready behind every entry that a step or a
settled await appends, that it is done behind the entry of its completion, and that it is rejected
when an await of it fails while it is there. No step of the machine appends more than one entry, and
when a signal starts, the entry is in the history and the status is that of what comes next. So
nothing is signalled for the entries of a replay or for a step that ends in a fault. -/
theorem signals_mirror_history {memory : K.Memory} {ambient : Bool} {code : Code K Unit}
    {t : List (Config K × Config K)} {d : Config K}
    (run : Run β (fun _ => True) (start { memory := memory, ambient := ambient } code) t d)
    (i : InstanceId) :
    signals i t = t.filterMap (fun p => due i p.1 p.2) ∧
    ∀ p ∈ t, p.2.entries i ≤ p.1.entries i + 1 ∧
      ∀ signal, p.2.signal? i = some signal →
        ∃ x x', p.1.state.instances[i]? = some x ∧ p.2.state.instances[i]? = some x' ∧
          x.status ≠ .terminated ∧ x.Mirrors x' signal := by
  have pairs : ∀ p ∈ t, p.1.Stands True i ∧ Follows β p.1 p.2 :=
    stands_start.pairs (fun _ _ _ => trivial) run
  refine ⟨List.filterMap_congr fun p mem => ?_, fun p mem => ?_⟩
  · obtain ⟨stands, follows⟩ := pairs p mem
    exact stands.signal? follows
  · obtain ⟨stands, follows⟩ := pairs p mem
    exact ⟨stands.entries_le follows, fun signal told => stands.mirrors follows told⟩

namespace Sketch

def signallingCode : Code client Unit :=
  .call .newMemo fun m =>
    .call (.newInstance { moves := [.hold (.int 1), .compute (.int 2) [.int 0],
        .await (.int 3) none, .finish] } m {}) fun i =>
      .call (.retain (.ofInstance i)) fun _ =>
        .call (.proceed i) fun _ =>
          .call .drain fun _ =>
            .call (.proceed i) fun _ =>
              .call (.newInstance { moves := [.hold (.int 1), .fail (.historyLimit 0)] } m {}) fun j =>
                .call (.replay j [.state (.int 1)]) fun _ =>
                  .call (.proceed j) fun _ => .done ()

theorem signalling_mirrors :
    (Config.signals 0 (Config.trail behaviour 70 (.start { memory := () } signallingCode))).map
      Signal.name = ["readyToContinue", "readyToContinue", "readyToContinue", "done"] ∧
    Config.signals 1 (Config.trail behaviour 70 (.start { memory := () } signallingCode)) = [] ∧
    (Config.after behaviour 70 (.start { memory := () } signallingCode)).entries 0 = 4 ∧
    (Config.after behaviour 70 (.start { memory := () } signallingCode)).entries 1 = 1 := by
  have run : Config.Run behaviour (fun _ => True) (.start { memory := () } signallingCode)
      (Config.trail behaviour 70 (.start { memory := () } signallingCode))
      (Config.after behaviour 70 (.start { memory := () } signallingCode)) :=
    .walk_all 70 _
  obtain ⟨first, -⟩ := signals_mirror_history run 0
  obtain ⟨second, -⟩ := signals_mirror_history run 1
  refine ⟨?_, ?_, by decide +kernel, by decide +kernel⟩
  · rw [first]
    decide +kernel
  · rw [second, ← List.length_eq_zero_iff]
    decide +kernel

end Sketch

end Resumable
