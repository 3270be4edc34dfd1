import Resumable.Proofs.Sketch

namespace Resumable

variable {K : Client} {β : Behaviour K} {M : Meaning β}

namespace Family

variable {F : Family M} {seen : InstanceId → List Event} {c d : Config K} {i : InstanceId}
  {x : Instance K}

theorem inv_empty (nothing : F.stored = []) (memory : K.Memory) (ambient : Bool)
    (code : Code K Unit) :
    F.Inv (fun _ => []) (Config.start { memory := memory, ambient := ambient } code) := by
  refine .quiet ⟨⟨[], by rw [nothing]; rfl, by simp⟩, fun i x member => ?_, fun i x member => ?_,
    fun task mem => by cases mem⟩ trivial
  · cases member.1
  · cases member.1

theorem Inv.standing (inv : F.Inv seen c) (member : F.Member c.state i x) :
    ∃ replayed, F.Standing replayed i (seen i) x := by
  cases inv with
  | quiet ok => exact ⟨_, ok.standing i x member⟩
  | stepping ok => exact ⟨_, ok.standing i x member⟩
  | computing ok => exact ⟨_, ok.standing i x member⟩
  | launching ok => exact ⟨_, ok.standing i x member⟩
  | polling ok => exact ⟨_, ok.standing i x member⟩
  | replaying _ ok => exact ⟨_, ok.standing i x member⟩

theorem Inv.recorded (inv : F.Inv seen c) (member : F.Member c.state i x) :
    M.Recorded (F.plan i) i x.history := by
  obtain ⟨replayed, standing⟩ := inv.standing member
  exact standing.recorded

theorem Inv.ends (inv : F.Inv seen c) (member : F.Member c.state i x)
    (ended : x.EndedByItself) : M.Ends (F.plan i) F.attended i x.history (seen i) := by
  obtain ⟨replayed, standing⟩ := inv.standing member
  cases standing with
  | paused status => rw [ended.1] at status; cases status
  | running status => rw [ended.1] at status; cases status
  | ended _ ends => exact ends
  | stopped _ closed => rw [ended.2] at closed; cases closed
  | fed status => rw [ended.1] at status; cases status

end Family

abbrev Family.alone [Nonempty K.Memory] (F : Family M) (sound : M.Sound) (i : InstanceId)
    (memo : MemoId) : Family M :=
  .uniform sound memo (F.plan i) (F.deterministic _ (F.listed i)) true

theorem Meaning.Recorded.prefix_of [Nonempty K.Memory] (sound : M.Sound) {π : Plan K}
    (deterministic : M.procedures π.start π.start) {i j : InstanceId} {h k : History K.Artifact}
    (recorded : M.Recorded π i h) (recorded' : M.Recorded π j k)
    (driven : h.length ≤ k.length ∨ ∃ es, M.Ends π true j k es) :
    ∃ l, l <+: k ∧ M.HistoryAlike h l := by
  have le : h.length ≤ k.length := by
    rcases driven with le | ⟨es, ends⟩
    · exact le
    · exact ends.length_le sound deterministic recorded
  refine ⟨k.take h.length, List.take_prefix _ _, ?_⟩
  exact recorded.alike sound deterministic (recorded'.take _) (List.length_take_of_le le).symm
    (Plan.Agree.refl π _)

/-- Each member of a family on a memo that is empty at first has recorded the beginning of what an
instance of its program has recorded that is driven alone, with a memo of its own, and has come as
far or has ended by itself. -/
theorem history_prefix_of_alone [Nonempty K.Memory] (sound : M.Sound) (F : Family M)
    (nothing : F.stored = []) {memory memory' : K.Memory} {ambient ambient' : Bool}
    {code code' : Code K Unit} {t t' : List (Config K × Config K)} {d d' : Config K}
    (run : Config.Run β F.Admits (.start { memory := memory, ambient := ambient } code) t d)
    {i j : InstanceId} {x y : Instance K} (found : d.state.instances[i]? = some x)
    (shares : x.memo = F.memo) {m : MemoId}
    (solo : Config.Run β (F.alone sound i m).Admits
      (.start { memory := memory', ambient := ambient' } code') t' d')
    (found' : d'.state.instances[j]? = some y) (owns : y.memo = m)
    (driven : x.history.length ≤ y.history.length ∨ y.EndedByItself) :
    ∃ l, l <+: y.history ∧ M.HistoryAlike x.history l := by
  have nothing' : (F.alone sound i m).stored = [] := (F.stores _ (F.listed i)).trans nothing
  obtain ⟨seen, inv, -⟩ := (F.inv_empty nothing memory ambient code).run sound run
  obtain ⟨seen', inv', -⟩ :=
    ((F.alone sound i m).inv_empty nothing' memory' ambient' code').run sound solo
  refine (inv.recorded ⟨found, shares⟩).prefix_of sound (F.deterministic _ (F.listed i))
    (inv'.recorded ⟨found', owns⟩) (driven.imp_right fun ended => ?_)
  exact ⟨_, inv'.ends ⟨found', owns⟩ ended⟩

namespace Sketch

def pair : InstanceId → List Move
  | 0 => [.compute (.int 7) [.int 1], .show, .finish]
  | _ => [.await (.int 7) (some [.int 1]), .hold (.int 3), .finish]

theorem pair_cached {i : InstanceId} {n : Nat} {move : Move} {keys : List Value} {value : Value}
    (found : (pair i)[n]? = some move) (cached : move.cached? = some (keys, value)) :
    value = .int 7 := by
  have mem := List.mem_of_getElem? found
  cases i with
  | zero =>
    simp only [pair, List.mem_cons, List.not_mem_nil, or_false] at mem
    rcases mem with rfl | rfl | rfl <;> cases cached
    rfl
  | succ i =>
    simp only [pair, List.mem_cons, List.not_mem_nil, or_false] at mem
    rcases mem with rfl | rfl | rfl <;> cases cached
    rfl

def pairFamily : Family meaning :=
  family 0 pair fun _ _ _ _ _ _ _ _ _ found found' cached cached' _ =>
    (pair_cached found cached).trans (pair_cached found' cached').symm

def pairCode : Code client Unit :=
  .call .newMemo fun m =>
    .call (.newInstance { moves := pair 0 } m {}) fun i =>
      .call (.newInstance { moves := pair 1 } m {}) fun j =>
        .call (.proceed i) fun _ => .call (.proceed j) fun _ => .done ()

def soloCode : Code client Unit :=
  .call .newMemo fun m =>
    .call (.newInstance { moves := pair 1 } m {}) fun i =>
      .call (.retain (.ofInstance i)) fun _ =>
        .call (.proceed i) fun _ =>
          .call .drain fun _ => .call (.proceed i) fun _ => .done ()

def pairRun : Config client :=
  Config.after behaviour 44 (.start { memory := () } pairCode)

def soloRun : Config client :=
  Config.after behaviour 40 (.start { memory := () } soloCode)

/-- The second one finds what the first one has computed, and records what it records alone. -/
theorem pair_history_prefix_of_solo :
    ∃ x y l, pairRun.state.instances[1]? = some x ∧ soloRun.state.instances[0]? = some y ∧
      x.history.length = 3 ∧ y.history.length = 3 ∧ l <+: y.history ∧
      meaning.HistoryAlike x.history l := by
  have run : Config.Run behaviour pairFamily.Admits (.start { memory := () } pairCode)
      (Config.trail behaviour 44 (.start { memory := () } pairCode)) pairRun :=
    .walk (conforms_admits pair fun _ => rfl) _ _ (by decide +kernel)
  have solo : Config.Run behaviour (pairFamily.alone meaning_sound 1 0).Admits
      (.start { memory := () } soloCode)
      (Config.trail behaviour 40 (.start { memory := () } soloCode)) soloRun :=
    .walk (conforms_admits (fun _ => pair 1) fun _ => rfl) _ _ (by decide +kernel)
  obtain ⟨l, begins, alike⟩ := history_prefix_of_alone meaning_sound pairFamily rfl run (i := 1)
    rfl rfl solo (j := 0) rfl rfl (.inl (by decide +kernel))
  exact ⟨_, _, l, rfl, rfl, by decide +kernel, by decide +kernel, begins, alike⟩

end Sketch

end Resumable
