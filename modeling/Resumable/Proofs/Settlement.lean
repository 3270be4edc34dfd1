import Resumable.Proofs.Condition
import Resumable.Proofs.Sketch

namespace Resumable

variable {K : Client} {β : Behaviour K} {i : InstanceId} {x : Instance K} {lost : Prop}
  {n : Position} {keys : Option (List Value)}

def Activity.request? : Activity → Option (Position × Option (List Value))
  | launch n keys => some (n, keys)
  | producer n keys => some (n, keys)
  | _ => none

theorem Turn.requested {loses : Prop} {cut : SubscriptionId → Prop} {memos : MemoId → Memo}
    {o o' : Option (Instance K)}
    {as as' : Multiset Activity} {deed : Option (Deed K.Artifact)} {a : Activity}
    (turn : Turn loses cut memos o as deed o' as') (stands : ∀ x, o = some x → x.Stands lost as)
    (mem : a ∈ as') (request : a.request? = some (n, keys)) :
    (∃ b ∈ as, b.request? = some (n, keys)) ∨
    (deed = some (.produce n keys) ∧ ∃ x, o = some x ∧ x.status = .running ∧
      x.history.length = n ∧ keys.bind ((memos x.memo).lookup n) = none) := by
  have added : ∀ {b : Activity} {bs : Multiset Activity}, b.request? = none → a ∈ b ::ₘ bs →
      a ∈ bs := by
    intro b bs none mem
    rcases Multiset.mem_cons.mp mem with rfl | mem
    · simp [none] at request
    · exact mem
  have kept : ∀ {b : Activity} {bs : Multiset Activity}, a ∈ bs → a ∈ b ::ₘ bs :=
    fun mem => Multiset.mem_cons_of_mem mem
  cases turn with
  | absent => exact absurd mem (Multiset.notMem_zero _)
  | born => exact absurd mem (Multiset.notMem_zero _)
  | bornReplaying => exact absurd (added rfl mem) (Multiset.notMem_zero _)
  | stays => exact .inl ⟨a, mem, request⟩
  | terminated => exact .inl ⟨a, mem, request⟩
  | refused => exact .inl ⟨a, mem, request⟩
  | started => exact .inl ⟨a, added rfl mem, request⟩
  | replayStarted => exact .inl ⟨a, added rfl mem, request⟩
  | replayed => exact .inl ⟨a, mem, request⟩
  | computing => exact .inl ⟨a, kept (added rfl mem), request⟩
  | @launching x p m as alive keys' missed =>
    rcases Multiset.mem_cons.mp mem with rfl | mem
    · cases request
      obtain ⟨⟨running, -, position⟩, -⟩ := (stands x rfl).of_alive alive
      exact .inr ⟨rfl, x, rfl, running, position.symm, missed⟩
    · exact .inl ⟨a, kept mem, request⟩
  | launched =>
    rcases Multiset.mem_cons.mp mem with rfl | mem
    · exact .inl ⟨_, Multiset.mem_cons_self .., request⟩
    · exact .inl ⟨a, kept mem, request⟩
  | _ => exact .inl ⟨a, kept mem, request⟩

namespace Config

def Misses (i : InstanceId) (n : Position) (keys : Option (List Value))
    (p : Config K × Config K) : Prop :=
  p.2.deed? i = some (.produce n keys) ∧ ∃ x, p.1.state.instances[i]? = some x ∧
    x.status = .running ∧ x.history.length = n ∧
    keys.bind ((p.1.state.memo x.memo).lookup n) = none

variable {c d : Config K} {t : List (Config K × Config K)} {G : Config K → Prop}

theorem Stands.missed (stands : c.Stands lost i) (may : ∀ c, G c → c.Loses i → lost)
    (idle : c.underWay i = 0) (run : Run β G c t d) {a : Activity} (mem : a ∈ d.underWay i)
    (request : a.request? = some (n, keys)) : ∃ p ∈ t, Misses i n keys p := by
  induction run generalizing a with
  | refl =>
    rw [idle] at mem
    exact absurd mem (Multiset.notMem_zero _)
  | snoc run guard follows ih =>
    have stands' := stands.run may run
    rcases (follows_turn stands'.absent follows).requested stands'.present mem request with
      ⟨b, mem, request⟩ | ⟨deed, missed⟩
    · obtain ⟨p, mem, misses⟩ := ih mem request
      exact ⟨p, List.mem_append_left _ mem, misses⟩
    · exact ⟨_, List.mem_append_right _ (List.mem_singleton_self _), deed, missed⟩

end Config

def State.keep (σ : State K) (m : MemoId) (n : Position) (keys : Option (List Value)) (v : Value) :
    State K :=
  match keys with
  | some keys => σ.remember m n keys v
  | none => σ

namespace State

variable (σ : State K) {m : MemoId} {v w : Value} {keys : List Value}

theorem memo_keep_of_lookup (h : (σ.memo m).lookup n keys = some w) :
    (σ.keep m n (some keys) v).memo = σ.memo := by
  have made : m < σ.memos.length := by
    by_contra beyond
    simp [memo, List.getElem?_eq_none (Nat.le_of_not_lt beyond), Memo.lookup] at h
  funext m'
  by_cases same : m' = m
  · rw [same, keep, memo_remember_self _ made, Memo.remember_of_lookup h]
  · exact σ.memo_remember_ne (Ne.symm same) n keys v

theorem memo_keep_of_lookup_eq_none (made : m < σ.memos.length)
    (h : (σ.memo m).lookup n keys = none) :
    (σ.keep m n (some keys) v).memo m = σ.memo m ++ [⟨n, keys, v⟩] := by
  have unanswered : (σ.memo m).any (·.answers n keys) = false := by
    simpa [Memo.lookup] using h
  rw [keep, memo_remember_self _ made, Memo.remember, unanswered, if_neg Bool.false_ne_true]

end State

namespace Config

variable {c : Config K} {stack : Stack K .unit} {task : Task K} {outcome : Except Failure Value}

theorem Completes.ignored (completes : c.Completes stack task outcome)
    (stands : c.Stands lost task.owner) (found : c.state.instances[task.owner]? = some x)
    (ended : c.state.instanceAlive stack task.owner = false ∨ x.status = .terminated) :
    c.step β = .ok ⟨.unit, c.state, .run (.done ()), stack⟩ := by
  rw [completes.step, Next.settle]
  split
  · next held =>
    have terminated := ended.resolve_left (by simp [held])
    rw [Next.withInstance, completes.unlocked stands, if_neg Bool.false_ne_true, found]
    simp only [terminated, ne_eq, reduceCtorEq, not_false_eq_true, true_or, if_true]
    rfl
  · rfl

theorem Completes.settled (completes : c.Completes stack task outcome)
    (stands : c.Stands lost task.owner) (found : c.state.instances[task.owner]? = some x)
    (held : c.state.instanceAlive stack task.owner = true) (alive : x.status ≠ .terminated) :
    c.step β = match outcome with
      | .ok v => .ok ⟨.unit, (c.state.keep x.memo task.position task.keys v).modifyInstance task.owner
          (·.record (.yielded v)), .emit (.ofInstance task.owner) .ready,
          .push (.settling task.owner) stack⟩
      | .error failure => .ok ⟨.unit, c.state.modifyInstance task.owner (·.fail),
          .emit (.ofInstance task.owner) (.rejected (.producer task.position failure)),
          .push (.settling task.owner) stack⟩ := by
  have waits := completes.waits stands found alive
  rw [completes.step, Next.settle, if_pos held, Next.withInstance, completes.unlocked stands,
    if_neg Bool.false_ne_true, found]
  simp only [waits, ne_eq, not_true_eq_false, or_self, if_false]
  cases outcome <;> rfl

end Config

open Config in
/-- Along every run from an empty machine, whatever happens between an await that the memo does not
answer and the end of its future: if the instance is gone or terminated by then, nothing changes and
nobody is told. Otherwise the instance still is at the position of the await; a value is recorded
there, goes into the memo unless that has one under agreeing keys, and leaves the instance paused
with one signal to go on; a failure leaves history and memo alone and stops the instance with one
signal that carries the position and the failure. -/
theorem settlement_exact {memory : K.Memory} {ambient : Bool} {code : Code K Unit}
    {t : List (Config K × Config K)} {c : Config K} {stack : Stack K .unit} {task : Task K}
    {outcome : Except Failure Value}
    (run : Run β (fun _ => True) (start { memory := memory, ambient := ambient } code) t c)
    (completes : c.Completes stack task outcome) :
    (∃ p ∈ t, Misses task.owner task.position task.keys p) ∧
    ∃ x, c.state.instances[task.owner]? = some x ∧
      (c.state.instanceAlive stack task.owner = false ∨ x.status = .terminated →
        c.step β = .ok ⟨.unit, c.state, .run (.done ()), stack⟩) ∧
      (c.state.instanceAlive stack task.owner = true → x.status ≠ .terminated →
        x.history.length = task.position ∧
        (∀ v, outcome = .ok v →
          c.step β = .ok ⟨.unit, (c.state.keep x.memo task.position task.keys v).modifyInstance
              task.owner fun x => { x with history := x.history ++ [.yielded v], status := .paused },
            .emit (.ofInstance task.owner) .ready, .push (.settling task.owner) stack⟩ ∧
          ∀ keys, task.keys = some keys →
            (∀ w, (c.state.memo x.memo).lookup task.position keys = some w →
              (c.state.keep x.memo task.position task.keys v).memo = c.state.memo) ∧
            ((c.state.memo x.memo).lookup task.position keys = none →
              x.memo < c.state.memos.length →
              (c.state.keep x.memo task.position task.keys v).memo x.memo =
                c.state.memo x.memo ++ [⟨task.position, keys, v⟩])) ∧
        (∀ failure, outcome = .error failure →
          c.step β = .ok ⟨.unit, c.state.modifyInstance task.owner ({ · with status := .terminated }),
            .emit (.ofInstance task.owner) (.rejected (.producer task.position failure)),
            .push (.settling task.owner) stack⟩)) ∧
      (∀ σ result, step β ⟨.unit, σ, .run (.ended result), .push (.settling task.owner) stack⟩ =
        .ok ⟨.unit, σ, .run (.done ()), stack⟩) ∧
      (∀ message, (Failure.failed message).message = message) ∧
      (∀ text, (Failure.panicked (.text text)).message = "producer panicked: " ++ text) ∧
      (Failure.panicked .other).message = "producer panicked: unknown panic" := by
  have stands : c.Stands True task.owner := stands_start.run (fun _ _ _ => trivial) run
  have under := completes.underWay
  have missed : ∃ p ∈ t, Misses task.owner task.position task.keys p :=
    Stands.missed (stands_start : Stands True _ _) (fun _ _ _ => trivial) rfl run
      (under ▸ Multiset.mem_cons_self ..) rfl
  obtain ⟨x, found⟩ : ∃ x, c.state.instances[task.owner]? = some x := by
    refine Option.ne_none_iff_exists'.mp fun none => ?_
    rw [stands.absent none] at under
    exact Multiset.cons_ne_zero under.symm
  refine ⟨missed, x, found, completes.ignored stands found, fun held alive => ⟨?_, ?_, ?_⟩, ?_,
    fun _ => rfl, fun _ => rfl, rfl⟩
  · exact (completes.waits stands found alive).2
  · rintro v rfl
    refine ⟨completes.settled stands found held alive, fun keys cached => ?_⟩
    rw [cached]
    exact ⟨fun w => c.state.memo_keep_of_lookup, fun unanswered made =>
      c.state.memo_keep_of_lookup_eq_none made unanswered⟩
  · rintro failure rfl
    exact completes.settled stands found held alive
  · rintro σ (payload | ⟨⟩)
    · exact step_panic ..
    · exact step_done ..

namespace Sketch

def raceCode : Code client Unit :=
  .call .newMemo fun m =>
    .call (.newInstance { moves := [.await (.int 3) (some [.int 0]), .finish] } m {}) fun i =>
      .call (.newInstance { moves := [.await (.int 4) (some [.int 0]), .finish] } m {}) fun j =>
        .call (.retain (.ofInstance i)) fun _ =>
          .call (.retain (.ofInstance j)) fun _ =>
            .call (.proceed i) fun _ =>
              .call (.proceed j) fun _ => .call .drain fun _ => .done ()

def raced : Config client :=
  Config.after behaviour 31 (.start { memory := () } raceCode)

def racedTask : Task client :=
  ⟨1, 0, some [.int 0], .int 4⟩

def racedStack : Stack client .unit :=
  .push .draining (.push (.waiting fun _ => .done ()) .empty)

theorem raced_settlement : raced.Completes racedStack racedTask (.ok (.int 4)) ∧
    (∃ p ∈ Config.trail behaviour 31 (.start { memory := () } raceCode),
      Config.Misses 1 0 (some [.int 0]) p) ∧
    ∃ x σ, raced.state.instances[1]? = some x ∧ x.history.length = 0 ∧
      raced.step behaviour =
        .ok ⟨.unit, σ, .emit (.ofInstance 1) .ready, .push (.settling 1) racedStack⟩ ∧
      (σ.memo x.memo).lookup 0 [.int 0] = some (.int 3) := by
  have run : Config.Run behaviour (fun _ => True) (.start { memory := () } raceCode) _ raced :=
    .walk_all 31 _
  have completes : raced.Completes racedStack racedTask (.ok (.int 4)) :=
    .answered _ (.ok (.int 4))
  obtain ⟨misses, x, found, -, settles, -⟩ := settlement_exact run completes
  obtain ⟨position, value, -⟩ := settles (by decide +kernel) (by cases found; decide +kernel)
  obtain ⟨step, kept⟩ := value (.int 4) rfl
  have first : (raced.state.memo x.memo).lookup 0 [.int 0] = some (.int 3) := by
    cases found
    decide +kernel
  refine ⟨completes, misses, x, _, found, position, step, ?_⟩
  rw [State.memo_modifyInstance, (kept [.int 0] rfl).1 _ first, first]

end Sketch

end Resumable
