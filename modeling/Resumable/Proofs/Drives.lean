import Resumable.Proofs.Errands
import Resumable.Proofs.HistoryBound

namespace Resumable

variable {K : Client} {s w : Shape} {β : Behaviour K} {i : InstanceId} {σ : State K}
  {base : Stack K .result} {x : Instance K} {n : Position}

def Frame.driven? : Frame K s w → Option (InstanceId × Position)
  | stepping i n => some (i, n)
  | computing i n _ => some (i, n)
  | launching i n _ => some (i, n)
  | _ => none

theorem State.history_appended {f : Instance K → Instance K} {e : Entry K.Artifact}
    (found : σ.instances[i]? = some x) (more : (f x).history = x.history ++ [e]) :
    (σ.modifyInstance i f).history i = σ.history i ++ [e] := by
  have found' : (σ.modifyInstance i f).instances[i]? = some (f x) := by
    rw [instances_modifyInstance_self, found, Option.map_some]
  rw [history_of_found found', history_of_found found, more]

namespace Config

inductive Extends (i : InstanceId) (h : History K.Artifact) (base : Stack K .result) :
    Config K → Prop
  | intro (σ : State K) (e : Entry K.Artifact) (signal : Signal K.Artifact)
    (more : σ.history i = h ++ [e]) (going : signal = .ready ∨ signal = .done) :
    Extends i h base ⟨.unit, σ, .emit (.ofInstance i) signal, .push (.proceeding i) base⟩

inductive Engages (i : InstanceId) (n : Position) (base : Stack K .result) : Config K → Prop
  | intro {s : Shape} (σ : State K) (frame : Frame K s .result) (call : Call K s)
    (own : frame.driven? = some (i, n)) (resumed : frame.resumed? = none) :
    Engages i n base ⟨s, σ, .call call, .push frame base⟩

end Config

namespace Next

open Config

theorem startStep_goes (unlocked : base.locksInstance i = false)
    (found : σ.instances[i]? = some x) : ∃ d, startStep σ base i = .ok d ∧ (d.Answered base ∨
      x.Roomy ∧ ∃ τ call, d = ⟨.step, τ, .call call, .push (.stepping i x.position) base⟩) := by
  rw [startStep, withInstance, unlocked, if_neg Bool.false_ne_true]
  simp only [found]
  split
  · exact ⟨_, rfl, .inl ⟨_, _, rfl⟩⟩
  · split
    · exact ⟨_, rfl, .inl ⟨_, _, rfl⟩⟩
    · exact ⟨_, rfl, .inl ⟨_, _, rfl⟩⟩
    · next room _ => exact ⟨_, rfl, .inr ⟨Instance.roomy_iff.mpr room, _, _, rfl⟩⟩
  · exact ⟨_, rfl, .inl ⟨_, _, rfl⟩⟩

theorem record_goes (base : Stack K .result) (found : σ.instances[i]? = some x)
    (e : Entry K.Artifact) :
    ∃ d, record σ base i e = .ok d ∧ d.Extends i (σ.history i) base :=
  ⟨_, rfl, .intro _ e .ready (State.history_appended found rfl) (.inl rfl)⟩

theorem interpret_goes (base : Stack K .result) (found : σ.instances[i]? = some x) (n : Position)
    (effect : Effect K.Artifact K.Producer K.Computation) :
    ∃ d, interpret σ base i x n effect = .ok d ∧
      (d.Answered base ∨ d.Extends i (σ.history i) base ∨ d.Engages i n base) := by
  have recorded : ∀ e, ∃ d, record σ base i e = .ok d ∧
      (d.Answered base ∨ d.Extends i (σ.history i) base ∨ d.Engages i n base) := fun e =>
    (record_goes base found e).imp fun _ goes => goes.imp_right fun longer => .inr (.inl longer)
  cases effect with
  | render artifact => exact recorded _
  | hold initial => exact recorded _
  | compute computation keys =>
    simp only [interpret]
    split
    · exact recorded _
    · exact ⟨_, rfl, .inr (.inr (.intro _ (.computing i n keys) _ rfl rfl))⟩
  | await producer keys =>
    simp only [interpret]
    split
    · exact recorded _
    · split
      · exact ⟨_, rfl, .inr (.inr (.intro _ (.launching i n keys) _ rfl rfl))⟩
      · exact ⟨_, rfl, .inl ⟨_, _, rfl⟩⟩

theorem finishStep_goes (base : Stack K .result) (found : σ.instances[i]? = some x) (n : Position)
    (p : K.Procedure) (answer : Except Fault K.Yielded) :
    ∃ d, finishStep σ base i n p answer = .ok d ∧
      (d.Answered base ∨ d.Extends i (σ.history i) base ∨ d.Engages i n base) := by
  have taken : (σ.modifyInstance i (·.takeBack p)).instances[i]? = some (x.takeBack p) := by
    rw [State.instances_modifyInstance_self, found, Option.map_some]
  have same : (σ.modifyInstance i (·.takeBack p)).history i = σ.history i :=
    State.history_modifyInstance i (f := (·.takeBack p)) (fun _ => rfl) i
  simp only [finishStep, taken]
  split
  · exact ⟨_, rfl, .inl ⟨_, _, rfl⟩⟩
  · split
    · exact ⟨_, rfl, .inl ⟨_, _, rfl⟩⟩
    · next a =>
      have more := State.history_appended (f := (·.complete a)) taken rfl
      rw [same] at more
      exact ⟨_, rfl, .inr (.inl (.intro _ _ .done more (.inr rfl)))⟩
    · next effect => exact same ▸ interpret_goes base taken n effect

theorem finishComputation_goes (base : Stack K .result) (found : σ.instances[i]? = some x)
    (n : Position) (keys : List Value) (v : Value) :
    ∃ d, finishComputation σ base i n keys v = .ok d ∧
      (d.Answered base ∨ d.Extends i (σ.history i) base) := by
  simp only [finishComputation, found]
  split
  · exact ⟨_, rfl, .inl ⟨_, _, rfl⟩⟩
  · obtain ⟨d, step, longer⟩ := record_goes base
      (σ := σ.remember x.memo n keys v) found (.yielded v)
    exact ⟨d, step, .inr longer⟩

theorem resume_goes (base : Stack K .result) {frame : Frame K s .result}
    (own : frame.driven? = some (i, n)) (found : σ.instances[i]? = some x) (answer : s.Answer K) :
    ∃ d, resume σ base frame answer = .ok d ∧ (d.Answered base ∨ d.Extends i (σ.history i) base ∨
      frame.resumed? = some i ∧ d.Engages i n base) := by
  cases frame with
  | stepping j m =>
    cases own
    obtain ⟨d, step, goes⟩ := finishStep_goes base found n answer.1 answer.2
    exact ⟨d, step, goes.imp_right (.imp_right fun engages => ⟨rfl, engages⟩)⟩
  | computing j m keys =>
    cases own
    obtain ⟨d, step, goes⟩ := finishComputation_goes base found n keys answer
    exact ⟨d, step, goes.imp_right .inl⟩
  | launching j m keys =>
    cases own
    exact ⟨_, rfl, .inl ⟨_, _, rfl⟩⟩
  | _ => cases own

end Next

namespace Config

variable {c d : Config K} {t : List (Config K × Config K)} {G : Config K → Prop}
  {limit first k : Nat}

def Unended (stack : Stack K s) (c : Config K) : Prop :=
  ∀ σ result, c ≠ ⟨s, σ, .run (.ended result), stack⟩

def nextAt (i : InstanceId) (depth : Nat) : Config K → Bool
  | ⟨_, _, .advance j, stack⟩ => j = i && stack.depth = depth
  | _ => false

theorem nextAt_of_rests {frame : Frame K s w} {rest : Stack K w}
    (rests : (Stack.push frame rest).Rests c.stack) : c.nextAt i rest.depth = false := by
  obtain ⟨s, σ, control, top⟩ := c
  have deeper : rest.depth < top.depth := rests.depth_le
  cases control with
  | advance j => simp [nextAt, Nat.ne_of_gt deeper]
  | _ => rfl

/-- Where a drive is that has come to `k` steps since the history had `first` entries: at the next
step, busy with client code for a step, telling an entry, or ended. All its steps but the last have
recorded an entry. -/
inductive Loops (i : InstanceId) (limit first : Nat) (base : Stack K .result) (k : Nat) :
    Config K → Prop
  | next (σ : State K) (fits : first + k ≤ (σ.history i).length + 1)
    (room : k ≤ limit - first + 1) :
    Loops i limit first base k ⟨.result, σ, .advance i, base⟩
  | busy {c : Config K} {s : Shape} (frame : Frame K s .result) {m : Nat}
    (own : frame.driven? = some (i, m)) (rests : (Stack.push frame base).Rests c.stack)
    (fits : first + k ≤ m + 1) (room : m < limit) (past : m ≤ (c.state.history i).length) :
    Loops i limit first base k c
  | told {c : Config K} (rests : (Stack.push (.proceeding i) base).Rests c.stack)
    (fits : first + k ≤ (c.state.history i).length) (room : first + k ≤ limit) :
    Loops i limit first base k c
  | ended (σ : State K) (result : Except Payload (Except Fault Unit))
    (room : k ≤ limit - first + 1) :
    Loops i limit first base k ⟨.result, σ, .run (.ended result), base⟩

theorem step_panicked {frame : Frame K s .result} (own : frame.ofThread = false)
    (payload : Payload) : step β ⟨s, σ, .run (.panic payload), .push frame base⟩ =
      .ok ⟨.result, σ, .run (.panic payload), base⟩ := by
  rw [step_panic]
  cases frame with
  | suspended => cases own
  | _ => rfl

theorem Follows.longer (follows : Follows β c d) (i : InstanceId) :
    (c.state.history i).length ≤ (d.state.history i).length :=
  (Run.history_prefix (.snoc (G := fun _ => True) .refl trivial follows) i).length_le

theorem Answered.loops (answered : d.Answered base) (room : k ≤ limit - first + 1) :
    d.nextAt i base.depth = false ∧ d.Loops i limit first base k := by
  obtain ⟨σ, answer, rfl⟩ := answered
  exact ⟨rfl, .ended σ (.ok answer) room⟩

theorem loops_of_advance (fits : first + k ≤ (σ.history i).length + 1)
    (room : k ≤ limit - first + 1) (follows : Follows β ⟨.result, σ, .advance i, base⟩ d)
    (found : σ.instances[i]? = some x) (limited : x.settings.limit = some limit) :
    d.nextAt i base.depth = false ∧ d.Loops i limit first base k := by
  have step := follows.step_eq (by rintro _ _ ⟨⟩)
  obtain ⟨-, -, unlocked, -⟩ := follows_advance follows
  obtain ⟨d, step', goes⟩ := Next.startStep_goes unlocked found
  rw [step_advance, step'] at step
  cases step
  rcases goes with answered | ⟨roomy, τ, call, rfl⟩
  · exact answered.loops room
  · have past : (σ.history i).length ≤ (τ.history i).length := follows.longer i
    rw [State.history_of_found found] at fits past
    exact ⟨rfl, .busy (.stepping i x.position) rfl .refl fits (roomy limit limited) past⟩

theorem loops_of_driven {frame : Frame K s .result} {m : Nat}
    {result : Except Payload (s.Answer K)} (own : frame.driven? = some (i, m))
    (fits : first + k ≤ m + 1) (room : m < limit) (past : m ≤ (σ.history i).length)
    (follows : Follows β ⟨s, σ, .run (.ended result), .push frame base⟩ d)
    (found : σ.instances[i]? = some x) :
    d.nextAt i base.depth = false ∧ d.Loops i limit first base k := by
  have step := follows.step_eq (by cases result <;> rintro _ (_ | _) ⟨⟩)
  have within : k ≤ limit - first + 1 := by omega
  cases result with
  | error payload =>
    rw [Code.ended, step_panicked (by cases frame <;> cases own <;> rfl)] at step
    cases step
    exact ⟨rfl, .ended σ (.error payload) within⟩
  | ok answer =>
    obtain ⟨d, step', goes⟩ := Next.resume_goes base own found answer
    rw [Code.ended, step_done, step'] at step
    cases step
    rcases goes with answered | ⟨τ, e, signal, more, -⟩ | ⟨-, τ, frame', call, own', -⟩
    · exact answered.loops within
    · have longer : first + k ≤ (τ.history i).length := by
        rw [more, List.length_append, List.length_singleton]
        omega
      exact ⟨rfl, .told .refl longer (by omega)⟩
    · exact ⟨rfl, .busy frame' own' .refl fits room (past.trans (follows.longer i))⟩

theorem loops_of_told {result : Except Payload Unit} (fits : first + k ≤ (σ.history i).length)
    (room : first + k ≤ limit)
    (follows : Follows β ⟨.unit, σ, .run (.ended result), .push (.proceeding i) base⟩ d) :
    d.nextAt i base.depth = false ∧ d.Loops i limit first base k ∨
      d.nextAt i base.depth = true ∧ d.Loops i limit first base (k + 1) := by
  have step := follows.step_eq (by cases result <;> rintro _ (_ | _) ⟨⟩)
  cases result with
  | error payload =>
    rw [Code.ended, step_panicked rfl] at step
    cases step
    exact .inl ⟨rfl, .ended σ (.error payload) (by omega)⟩
  | ok answer =>
    rw [Code.ended, step_done] at step
    cases step
    exact .inr ⟨by simp [nextAt], .next σ (by omega) (by omega)⟩

/-- A drive goes on with the step that it has come to, or comes to the next one. -/
theorem Loops.follows (loops : c.Loops i limit first base k) (unended : c.Unended base)
    (follows : Follows β c d) (found : c.state.instances[i]? = some x)
    (limited : x.settings.limit = some limit) :
    d.nextAt i base.depth = false ∧ d.Loops i limit first base k ∨
      d.nextAt i base.depth = true ∧ d.Loops i limit first base (k + 1) := by
  cases loops with
  | next σ fits room => exact .inl (loops_of_advance fits room follows found limited)
  | busy frame own rests fits room past =>
    rcases follows.stays rests with rests | ⟨σ, result, rfl⟩
    · exact .inl ⟨nextAt_of_rests rests,
        .busy frame own rests fits room (past.trans (follows.longer i))⟩
    · exact .inl (loops_of_driven own fits room past follows found)
  | told rests fits room =>
    rcases follows.stays rests with rests | ⟨σ, result, rfl⟩
    · exact .inl ⟨nextAt_of_rests rests, .told rests (fits.trans (follows.longer i)) room⟩
    · exact loops_of_told fits room follows
  | ended σ result => exact absurd rfl (unended σ result)

/-- How often an instance comes to its next step with a number of frames below it, from a
configuration on. As long as those who wait there are not answered, it does so for them. -/
def turns (i : InstanceId) (depth : Nat) (c : Config K) (t : List (Config K × Config K)) : Nat :=
  (c :: t.map (·.2)).countP (nextAt i depth)

theorem turns_snoc (p : Config K × Config K) (depth : Nat) : turns i depth c (t ++ [p]) =
    turns i depth c t + if p.2.nextAt i depth then 1 else 0 := by
  simp [turns, List.countP_cons, Nat.add_right_comm]

theorem Run.loops (found : σ.instances[i]? = some x) (limited : x.settings.limit = some limit)
    (run : Run β (Unended base) ⟨.result, σ, .advance i, base⟩ t d) :
    d.Loops i limit x.history.length base
      (turns i base.depth ⟨.result, σ, .advance i, base⟩ t) := by
  induction run with
  | refl =>
    have one : turns i base.depth ⟨.result, σ, .advance i, base⟩ [] = 1 := by simp [turns, nextAt]
    rw [one]
    exact .next σ (by rw [State.history_of_found found]) (Nat.le_add_left 1 _)
  | @snoc t d e run unended follows ih =>
    obtain ⟨y, found', settings⟩ := run.kept_settings found
    rw [turns_snoc]
    have limited' : y.settings.limit = some limit := settings ▸ limited
    rcases ih.follows unended follows found' limited' with ⟨other, loops⟩ | ⟨next, loops⟩
    · rwa [other]
    · rwa [next]

theorem Loops.room (loops : c.Loops i limit first base k) : k ≤ limit - first + 1 := by
  cases loops with
  | next _ _ room => exact room
  | busy _ _ _ fits room => omega
  | told _ _ room => omega
  | ended _ _ room => exact room

def drives (i : InstanceId) : Config K → Bool
  | ⟨_, _, .call _, .push (.stepping j _) _⟩ => j = i
  | _ => false

theorem drives_iff : c.drives i = true ↔ ∃ (σ : State K) (call : Call K .step) (n : Position)
    (rest : Stack K .result), c = ⟨.step, σ, .call call, .push (.stepping i n) rest⟩ := by
  constructor
  · intro drives
    unfold Config.drives at drives
    split at drives
    · next σ call j n rest =>
      obtain rfl : j = i := of_decide_eq_true drives
      exact ⟨σ, call, n, rest, rfl⟩
    · cases drives
  · rintro ⟨σ, call, n, rest, rfl⟩
    exact decide_eq_true rfl

theorem resumes_of_drives (drives : c.drives i = true) : c.resumes i = true := by
  obtain ⟨σ, call, n, rest, rfl⟩ := drives_iff.mp drives
  exact resumes_iff.mpr (if_pos rfl)

variable {memory : K.Memory} {ambient : Bool} {code : Code K Unit}

theorem Run.driven_room
    (run : Run β G (start { memory := memory, ambient := ambient } code) t d)
    (drives : d.drives i = true) : ∃ y, d.state.instances[i]? = some y ∧ y.Roomy := by
  have resumed := resumes_iff.mp (resumes_of_drives drives)
  have stands : d.Stands True i := run.stands _
  cases run with
  | refl => cases resumed
  | @snoc t c d run guard follows =>
    have before : c.Stands True i := run.stands _
    have turn := follows_turn before.absent follows
    obtain ⟨σ, call, n, rest, rfl⟩ := drives_iff.mp drives
    have fits : (Frame.stepping i n).Fits σ rest call := follows.fits
    obtain ⟨y, p, found, -, -⟩ := fits
    have alive : y.status ≠ .terminated := by
      rw [show σ.instances[i]? = some y from found] at turn
      exact turn.resumes_alive resumed
    have suits := (stands.present y found).suits (Stack.mem_underWay .refl rfl _) alive
    exact ⟨y, found, Run.roomy (.snoc run guard follows) found suits.1⟩

theorem Run.drives_le
    (run : Run β G (start { memory := memory, ambient := ambient } code) t d)
    (found : d.state.instances[i]? = some x) (limited : x.settings.limit = some limit) :
    t.countP (·.2.drives i) ≤ limit := by
  have counted : (resumedAt i (t.filter (·.2.drives i))).length = t.countP (·.2.drives i) := by
    rw [resumedAt, List.length_filterMap_eq_countP, List.countP_filter]
    refine List.countP_congr fun p _ => ?_
    by_cases drives : p.2.drives i = true
    · simp [drives, resumes_of_drives drives]
    · simp [drives]
  have distinct : (resumedAt i (t.filter (·.2.drives i))).Nodup := by
    have order := (run.paced i).order ▸ List.nodup_range
    exact (List.filter_sublist.filterMap _).nodup order
  have low : resumedAt i (t.filter (·.2.drives i)) ⊆ List.range limit := by
    intro n mem
    obtain ⟨p, here, at'⟩ := List.mem_filterMap.mp mem
    obtain ⟨there, drives⟩ := List.mem_filter.mp here
    obtain rfl := Option.some.inj (Option.ite_none_right_eq_some.mp at').2
    obtain ⟨u, v, rfl⟩ := List.append_of_mem there
    obtain ⟨before, guard, follows, after⟩ := run.split rfl
    obtain ⟨y, found', roomy⟩ := Run.driven_room (.snoc before guard follows) drives
    obtain ⟨z, found'', settings⟩ := after.kept_settings found'
    obtain rfl := Option.some.inj (found.symm.trans found'')
    rw [List.mem_range, entries_of_found found']
    exact roomy limit (settings ▸ limited)
  rw [← counted]
  simpa using (List.subperm_of_subset distinct low).length_le

end Config

end Resumable
