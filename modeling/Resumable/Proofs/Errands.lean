import Resumable.Proofs.Finality
import Resumable.Proofs.Loans
import Resumable.Proofs.Provenance
import Resumable.Proofs.Snapshots

namespace Resumable

variable {K : Client} {s w : Shape} {β : Behaviour K} {i : InstanceId} {σ : State K}

inductive Errand where
  | drive
  | replay
  deriving DecidableEq

def Frame.errand? : Frame K s w → Option (Errand × InstanceId)
  | stepping i _ => some (.drive, i)
  | computing i _ _ => some (.drive, i)
  | launching i _ _ => some (.drive, i)
  | proceeding i => some (.drive, i)
  | replaying i _ _ => some (.replay, i)
  | _ => none

namespace Config

/-- An errand begins, for those who wait on a stack: an instance is driven, or a client or a component
has it replay. -/
inductive Undertakes (i : InstanceId) : Errand → Stack K .result → Config K → Prop
  | drive (σ : State K) (base : Stack K .result) :
    Undertakes i .drive base ⟨.result, σ, .advance i, base⟩
  | replay {s : Shape} (σ : State K) (h : History K.Artifact)
    (next : Shape.result.Answer K → Code K (s.Answer K)) (stack : Stack K s) :
    Undertakes i .replay (.push (.waiting next) stack)
      ⟨s, σ, .run (.call (.replay i h) next), stack⟩
  | fork (σ : State K) (k : ComponentId) (h : History K.Artifact) (p : K.Procedure)
    (stack : Stack K .unit) (fresh : σ.instances.length = i) :
    Undertakes i .replay (.push (.adopting k i) stack)
      ⟨.procedure, σ, .run (.done p), .push (.forking k h) stack⟩

def Answered (base : Stack K s) (c : Config K) : Prop :=
  ∃ σ answer, c = ⟨s, σ, .run (.done answer), base⟩

inductive Pursues (errand : Errand) (i : InstanceId) (base : Stack K .result) : Config K → Prop
  | next (σ : State K) (drives : errand = .drive) : Pursues errand i base
      ⟨.result, σ, .advance i, base⟩
  | busy {c : Config K} {w : Shape} (frame : Frame K w .result)
    (own : frame.errand? = some (errand, i)) (rests : (Stack.push frame base).Rests c.stack) :
    Pursues errand i base c

inductive Advances (σ : State K) (i : InstanceId) (base : Stack K .result) (x : Instance K) :
    Config K → Prop
  | inside (running : x.status = .running) (lent : x.procedure = none) : Advances σ i base x
      ⟨.result, σ, .run (.done (.error (.contract x.position .proceedInsideStep))), base⟩
  | full {limit : Nat} (exhausted : x.exhausted? = some limit) : Advances σ i base x
      ⟨.result, σ.modifyInstance i (·.fail), .run (.done (.error (.historyLimit limit))), base⟩
  | missing (paused : x.status = .paused) (lent : x.procedure = none) (d : Config K) :
    Advances σ i base x d
  | started (τ : State K) {p : K.Procedure} (input : Option (Resumption K.Artifact))
    (paused : x.status = .paused) (there : x.procedure = some p) : Advances σ i base x
      ⟨.step, τ, .call (.resume p input), .push (.stepping i x.position) base⟩
  | idle : Advances σ i base x ⟨.result, σ, .run (.done (.ok ())), base⟩

inductive Opens (σ : State K) (i : InstanceId) (base : Stack K .result) : Config K → Prop
  | nothing : Opens σ i base ⟨.result, σ, .run (.done (.ok ())), base⟩
  | unfit {x : Instance K} (found : σ.instances[i]? = some x)
    (reason : x.history ≠ [] ∨ x.status ≠ .paused) : Opens σ i base
      ⟨.result, σ, .run (.done (.error (.contract x.position .replayNotFresh))), base⟩
  | missing {x : Instance K} (found : σ.instances[i]? = some x)
    (unlocked : base.locksInstance i = false) (paused : x.status = .paused)
    (lent : x.procedure = none) (d : Config K) : Opens σ i base d
  | started (τ : State K) (p : K.Procedure) (e : Entry K.Artifact) (later : History K.Artifact) :
    Opens σ i base ⟨.step, τ, .call (.resume p none), .push (.replaying i e later) base⟩

end Config

namespace Next

open Config

variable {base : Stack K .result}

theorem startStep_advances : (startStep σ base i).Holds fun d =>
    ∃ x, σ.instances[i]? = some x ∧ base.locksInstance i = false ∧ d.Advances σ i base x := by
  refine Holds.withInstance fun x unlocked found => ?_
  split
  · next running lent => exact holds_give.mpr ⟨x, found, unlocked, .inside running lent⟩
  · next paused =>
    split
    · next exhausted => exact holds_give.mpr ⟨x, found, unlocked, .full exhausted⟩
    · next lent => exact holds_give.mpr ⟨x, found, unlocked, .missing paused lent _⟩
    · next there => exact holds_call.mpr ⟨x, found, unlocked, .started _ _ paused there⟩
  · exact holds_give.mpr ⟨x, found, unlocked, .idle⟩

theorem replay_opens (h : History K.Artifact) : (replay σ base i h).Holds (Opens σ i base) := by
  cases h with
  | nil => exact holds_give.mpr .nothing
  | cons e later =>
    refine Holds.withInstance fun x unlocked found => ?_
    split
    · next reason => exact holds_give.mpr (.unfit found reason)
    · next fresh =>
      rw [not_or, not_not, not_not] at fresh
      split
      · next lent => exact holds_give.mpr (.missing found unlocked fresh.2 lent _)
      · exact holds_call.mpr (.started _ _ e later)

end Next

namespace Config

variable {errand : Errand} {base : Stack K .result} {c d : Config K} {x : Instance K}
  {n : Position} {answer : Except Fault K.Yielded}

theorem Advances.pursues (advances : d.Advances σ i base x)
    (there : x.status = .paused → x.procedure ≠ none) :
    d.Pursues .drive i base ∨ d.Answered base := by
  cases advances with
  | inside => exact .inr ⟨_, _, rfl⟩
  | full => exact .inr ⟨_, _, rfl⟩
  | missing paused lent => exact absurd lent (there paused)
  | started => exact .inl (.busy (.stepping i x.position) rfl .refl)
  | idle => exact .inr ⟨_, _, rfl⟩

theorem Interprets.pursues (interprets : Interprets i n σ x base answer d) :
    d.Pursues .drive i base ∨ d.Answered base := by
  cases interprets with
  | failed => exact .inr ⟨_, _, rfl⟩
  | completed => exact .inl (.busy (.proceeding i) rfl .refl)
  | recorded => exact .inl (.busy (.proceeding i) rfl .refl)
  | computing => exact .inl (.busy (.computing i n _) rfl .refl)
  | launching => exact .inl (.busy (.launching i n _) rfl .refl)
  | stranded => exact .inr ⟨_, _, rfl⟩

theorem Replays.pursues {e : Entry K.Artifact} {later : History K.Artifact} {p : K.Procedure}
    (replays : Replays i n σ e later p base answer d) :
    d.Pursues .replay i base ∨ d.Answered base := by
  cases replays with
  | @resumed _ _ next others => exact .inl (.busy (.replaying i next others) rfl .refl)
  | _ => exact .inr ⟨_, _, rfl⟩

theorem follows_stepping {p : K.Procedure}
    (follows : Follows β ⟨.step, σ, .run (.done (p, answer)), .push (.stepping i n) base⟩ d) :
    d.Pursues .drive i base ∨ d.Answered base := by
  have step := follows.step_eq (by rintro _ _ ⟨⟩)
  cases found : σ.instances[i]? with
  | none =>
    rw [step_done] at step
    simp only [Next.resume, Next.finishStep, State.instances_modifyInstance_self, found,
      Option.map_none] at step
    cases step
  | some x =>
    by_cases ended : x.status = .terminated
    · rw [overtaken_returns found ended] at step
      cases step
      exact .inr ⟨_, _, rfl⟩
    · rw [step_done] at step
      exact (Next.finishStep_interprets n found ended d step).pursues

theorem follows_computing {keys : List Value} {v : Value}
    (follows : Follows β ⟨.value, σ, .run (.done v), .push (.computing i n keys) base⟩ d) :
    d.Pursues .drive i base ∨ ∃ τ, d = ⟨.result, τ, .run (.done (.ok ())), base⟩ := by
  have step := follows.step_eq (by rintro _ _ ⟨⟩)
  rw [step_done] at step
  simp only [Next.resume, Next.finishComputation] at step
  split at step
  · cases step
  · split at step
    · cases step
      exact .inr ⟨_, rfl⟩
    · cases step
      exact .inl (.busy (.proceeding i) rfl .refl)

theorem follows_replaying {e : Entry K.Artifact} {later : History K.Artifact} {p : K.Procedure}
    (follows : Follows β ⟨.step, σ, .run (.done (p, answer)), .push (.replaying i e later) base⟩ d) :
    d.Pursues .replay i base ∨ d.Answered base := by
  have step := follows.step_eq (by rintro _ _ ⟨⟩)
  rw [step_done] at step
  cases found : σ.instances[i]? with
  | none =>
    simp only [Next.resume, Next.finishReplayed, found] at step
    cases step
  | some x => exact (Next.finishReplayed_replays e later found d step).pursues

theorem follows_errand {frame : Frame K s .result} {answer : s.Answer K}
    (own : frame.errand? = some (errand, i))
    (follows : Follows β ⟨s, σ, .run (.done answer), .push frame base⟩ d) :
    d.Pursues errand i base ∨ d.Answered base ∧ (frame.resumed? = some i ∨
      ∀ τ fault, d ≠ ⟨.result, τ, .run (.done (.error fault)), base⟩) := by
  cases frame with
  | stepping j n =>
    cases own
    exact (follows_stepping follows).imp_right fun answered => ⟨answered, .inl rfl⟩
  | replaying j e later =>
    cases own
    exact (follows_replaying follows).imp_right fun answered => ⟨answered, .inl rfl⟩
  | computing j n keys =>
    cases own
    rcases follows_computing follows with pursues | ⟨τ, rfl⟩
    · exact .inl pursues
    · exact .inr ⟨⟨_, _, rfl⟩, .inr (by rintro _ _ ⟨⟩)⟩
  | launching j n keys =>
    cases own
    have step := follows.step_eq (by rintro _ _ ⟨⟩)
    rw [step_done] at step
    cases step
    exact .inr ⟨⟨_, _, rfl⟩, .inr (by rintro _ _ ⟨⟩)⟩
  | proceeding j =>
    cases own
    have step := follows.step_eq (by rintro _ (_ | _) ⟨⟩)
    rw [step_done] at step
    cases step
    exact .inl (.next σ rfl)
  | _ => cases own

theorem follows_advance (follows : Follows β ⟨.result, σ, .advance i, base⟩ d) :
    ∃ x, σ.instances[i]? = some x ∧ base.locksInstance i = false ∧ d.Advances σ i base x := by
  have step := follows.step_eq (by rintro _ _ ⟨⟩)
  rw [step_advance] at step
  exact Next.startStep_advances d step

theorem Pursues.follows (pursues : c.Pursues errand i base) (lends : c.Lends i) (calm : ¬ c.Panics)
    (follows : Follows β c d) : d.Pursues errand i base ∨ d.Answered base := by
  cases pursues with
  | next σ drives =>
    subst drives
    obtain ⟨x, found, unlocked, advances⟩ := follows_advance follows
    exact advances.pursues fun paused => lends.there found paused unlocked
  | busy frame own rests =>
    rcases follows.stays rests with rests | ⟨σ, result, rfl⟩
    · exact .inl (.busy frame own rests)
    · cases result with
      | ok answer => exact (follows_errand own follows).imp_right And.left
      | error payload => exact absurd ⟨payload, rfl⟩ calm

theorem Pursues.not_answered (pursues : c.Pursues errand i base) : ¬ c.Answered base := by
  rintro ⟨σ, answer, rfl⟩
  cases pursues with
  | busy frame own rests => exact absurd rests.depth_le (Nat.not_succ_le_self _)

theorem Pursues.of_fault {τ : State K} {fault : Fault} (pursues : c.Pursues errand i base)
    (calm : ¬ c.Panics)
    (follows : Follows β c ⟨.result, τ, .run (.done (.error fault)), base⟩) :
    (errand = .drive ∧ ∃ σ, c = ⟨.result, σ, .advance i, base⟩) ∨
      ∃ (frame : Frame K .step .result) (σ : State K) (answer : Shape.step.Answer K),
        c = ⟨.step, σ, .run (.done answer), .push frame base⟩ ∧
        frame.errand? = some (errand, i) ∧ frame.resumed? = some i := by
  cases pursues with
  | next σ drives => exact .inl ⟨drives, σ, rfl⟩
  | busy frame own rests =>
    right
    rcases follows.stays rests with rests | ⟨σ, result, rfl⟩
    · exact absurd rests.depth_le (Nat.not_succ_le_self _)
    · cases result with
      | error payload => exact absurd ⟨payload, rfl⟩ calm
      | ok answer =>
        rcases follows_errand own follows with pursues | ⟨-, resumed | faultless⟩
        · exact absurd ⟨τ, _, rfl⟩ pursues.not_answered
        · cases frame with
          | stepping j n => exact ⟨_, σ, answer, rfl, own, resumed⟩
          | replaying j e later => exact ⟨_, σ, answer, rfl, own, resumed⟩
          | _ => cases resumed
        · exact absurd rfl (faultless τ fault)

theorem Undertakes.replays (undertakes : c.Undertakes i .replay base) (lends : c.Lends i)
    (follows : Follows β c d) : d.Pursues .replay i base ∨ d.Answered base ∧
      ∀ τ fault, d = ⟨.result, τ, .run (.done (.error fault)), base⟩ → τ = c.state ∧
        ∃ x, c.state.instances[i]? = some x ∧ (x.history ≠ [] ∨ x.status ≠ .paused) ∧
          fault = .contract x.history.length .replayNotFresh := by
  cases undertakes with
  | replay σ h next stack =>
    have step := follows.step_eq (by rintro _ (_ | _) ⟨⟩)
    rw [step_request] at step
    have opens : d.Opens σ i (.push (.waiting next) stack) := Next.replay_opens h d step
    cases opens with
    | nothing => exact .inr ⟨⟨_, _, rfl⟩, by rintro τ fault ⟨⟩⟩
    | unfit found reason =>
      refine .inr ⟨⟨_, _, rfl⟩, ?_⟩
      rintro τ fault ⟨⟩
      exact ⟨rfl, _, found, reason, rfl⟩
    | missing found unlocked paused lent =>
      have unlocked' : stack.locksInstance i = false := by
        simpa [Stack.locksInstance, Stack.any, Frame.lockedInstance?] using unlocked
      exact absurd lent (lends.there found paused unlocked')
    | started τ p e later => exact .inl (.busy (.replaying i e later) rfl .refl)
  | fork σ k h p stack fresh =>
    subst fresh
    have step := follows.step_eq (by rintro _ _ ⟨⟩)
    rw [step_done] at step
    simp only [Next.resume, Next.finishBuild] at step
    split at step
    · cases step
    · next y made =>
      have opens := Next.replay_opens h d step
      have new : (σ.newInstance p y.memo y.settings [.host k]).2.instances[σ.instances.length]? =
          some _ := List.getElem?_concat_length
      cases opens with
      | nothing => exact .inr ⟨⟨_, _, rfl⟩, by rintro τ fault ⟨⟩⟩
      | unfit found reason =>
        obtain rfl := Option.some.inj (new.symm.trans found)
        rcases reason with entries | status
        · exact absurd rfl entries
        · exact absurd rfl status
      | missing found _ _ lent =>
        obtain rfl := Option.some.inj (new.symm.trans found)
        cases lent
      | started τ p e later => exact .inl (.busy (.replaying _ e later) rfl .refl)

theorem Undertakes.follows (undertakes : c.Undertakes i errand base) (lends : c.Lends i)
    (calm : ¬ c.Panics) (follows : Follows β c d) :
    d.Pursues errand i base ∨ d.Answered base := by
  cases errand with
  | drive =>
    cases undertakes
    exact Pursues.follows (.next _ rfl) lends calm follows
  | replay => exact (undertakes.replays lends follows).imp_right And.left

variable {t u : List (Config K × Config K)} {G : Config K → Prop} {memory : K.Memory}
  {ambient : Bool} {code : Code K Unit}

theorem Run.pursued
    (run : Run β (fun c => ¬ c.Panics) (start { memory := memory, ambient := ambient } code) t c)
    (undertakes : c.Undertakes i errand base)
    (call : Run β (fun c => ¬ c.Panics ∧ ¬ c.Answered base) c u d) :
    (u = [] ∧ d = c) ∨ d.Pursues errand i base ∨ d.Answered base := by
  induction call with
  | refl => exact .inl ⟨rfl, rfl⟩
  | @snoc u d e call guard follows ih =>
    right
    have lends : d.Lends i :=
      (run.append (call.imp fun c guard => guard.1)).lends fun c calm => calm
    rcases ih with ⟨-, rfl⟩ | pursues | answered
    · exact undertakes.follows lends guard.1 follows
    · exact pursues.follows lends guard.1 follows
    · exact absurd answered guard.2

theorem inside_answers {rest : Stack K .result} (stands : Stands True i ⟨.result, σ, .advance i, base⟩)
    (inside : (Stack.push (.stepping i n) rest).Rests base)
    (follows : Follows β ⟨.result, σ, .advance i, base⟩ d) : d.Answered base := by
  obtain ⟨x, found, -, advances⟩ := follows_advance follows
  have mem : .step n ∈ Config.underWay i ⟨.result, σ, .advance i, base⟩ :=
    Stack.mem_underWay inside rfl _
  have running : x.status ≠ .paused := by
    intro paused
    have suits := (stands.present x found).suits mem (by simp [paused])
    exact absurd (paused.symm.trans suits.1) (by decide)
  cases advances with
  | missing paused => exact absurd paused running
  | started _ _ paused => exact absurd paused running
  | _ => exact ⟨_, _, rfl⟩

theorem advance_fault {τ : State K} {fault : Fault}
    (lends : Lends i ⟨.result, σ, .advance i, base⟩)
    (follows : Follows β ⟨.result, σ, .advance i, base⟩
      ⟨.result, τ, .run (.done (.error fault)), base⟩) :
    ∃ x, σ.instances[i]? = some x ∧
      ((τ = σ ∧ (∃ n rest, (Stack.push (.stepping i n) rest : Stack K .step).Rests base) ∧
        fault = .contract x.history.length .proceedInsideStep) ∨
      ∃ limit, x.exhausted? = some limit ∧ τ = σ.modifyInstance i (·.fail) ∧
        fault = .historyLimit limit) := by
  obtain ⟨x, found, unlocked, advances⟩ := follows_advance follows
  refine ⟨x, found, ?_⟩
  cases advances with
  | inside running lent => exact .inl ⟨rfl, lends.inside found running lent, rfl⟩
  | full exhausted => exact .inr ⟨_, exhausted, rfl, rfl⟩
  | missing paused lent => exact absurd lent (lends.there found paused unlocked)

end Config

end Resumable
