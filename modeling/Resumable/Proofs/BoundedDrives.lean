import Resumable.Proofs.Drives

namespace Resumable

variable {K : Client} {s w : Shape} {β : Behaviour K} {i : InstanceId} {σ : State K}
  {base : Stack K .result} {x : Instance K} {n : Position} {signal : Signal K.Artifact}
  {left : List (Observer K)} {k : ComponentId}

namespace Config

variable {c d : Config K} {t : List (Config K × Config K)} {P Q : Config K → Prop}

def Comes (β : Behaviour K) (stack : Stack K s) (P : Config K → Prop) (c : Config K) : Prop :=
  ∃ t d, Run β (Unended stack) c t d ∧ P d

theorem Comes.here (holds : P c) : c.Comes β base P :=
  ⟨[], c, .refl, holds⟩

theorem Comes.bind (first : c.Comes β base P)
    (later : ∀ t d, Run β (Unended base) c t d → P d → d.Comes β base Q) : c.Comes β base Q := by
  obtain ⟨t, d, run, holds⟩ := first
  obtain ⟨u, e, run', holds'⟩ := later t d run holds
  exact ⟨t ++ u, e, run.append run', holds'⟩

theorem Comes.of_step (unended : c.Unended base) (step : c.step β = .ok d)
    (later : d.Comes β base P) : c.Comes β base P := by
  obtain ⟨t, e, run, holds⟩ := later
  exact ⟨_, e, Run.append (.snoc .refl unended (.step step)) run, holds⟩

theorem unended_of_rests {frame : Frame K s w} {rest : Stack K w} (below : base.Rests rest)
    (rests : (Stack.push frame rest).Rests c.stack) : c.Unended base := by
  rintro σ result rfl
  exact absurd (below.depth_le.trans_lt rests.depth_le) (Nat.lt_irrefl _)

theorem Run.aloft {frame : Frame K s w} {rest : Stack K w} (below : base.Rests rest)
    (rests : (Stack.push frame rest).Rests c.stack)
    (run : Run β (Unended (.push frame rest)) c t d) :
    Run β (Unended base) c t d ∧ (Stack.push frame rest).Rests d.stack := by
  induction run with
  | refl => exact ⟨.refl, rests⟩
  | snoc _ unended follows ih =>
    obtain ⟨run, rests⟩ := ih
    rcases follows.stays rests with rests' | ⟨σ, result, rfl⟩
    · exact ⟨run.snoc (unended_of_rests below rests) follows, rests'⟩
    · exact absurd rfl (unended σ result)

def Concludes (β : Behaviour K) (c : Config K) : Prop :=
  c.Comes β c.stack fun d => ∃ τ answer, d = ⟨c.shape, τ, .run (.done answer), c.stack⟩

/-- A drive calls client code: for a step, to tell an observer of an entry, or to have a component
that is told ask for a render. -/
inductive CallsClient (i : InstanceId) (base : Stack K .result) : Config K → Prop
  | step {s : Shape} {n : Position} (σ : State K) (call : Call K s) (frame : Frame K s .result)
    (own : frame.driven? = some (i, n)) : CallsClient i base ⟨s, σ, .call call, .push frame base⟩
  | observer (σ : State K) (call : Call K .unit) (left : List (Observer K))
    (signal : Signal K.Artifact) : CallsClient i base ⟨.unit, σ, .call call,
      .push (.emitting (.ofInstance i) left signal) (.push (.proceeding i) base)⟩
  | callback (σ : State K) (call : Call K .unit) (k : ComponentId) (left : List (Observer K))
    (signal : Signal K.Artifact) : CallsClient i base ⟨.unit, σ, .call call, .push (.hosting k)
      (.push (.emitting (.ofInstance i) left signal) (.push (.proceeding i) base))⟩

theorem CallsClient.above (callsClient : c.CallsClient i base) : ∃ (w : Shape) (frame : Frame K c.shape w)
    (rest : Stack K w), c.stack = .push frame rest ∧ base.Rests rest := by
  cases callsClient with
  | step σ call frame => exact ⟨_, frame, base, rfl, .refl⟩
  | observer σ call left signal => exact ⟨_, _, _, rfl, .push .refl _⟩
  | callback σ call k left signal => exact ⟨_, _, _, rfl, .push (.push .refl _) _⟩

/-- All that a drive calls comes to an answer. -/
def CallsAnswered (β : Behaviour K) (i : InstanceId) (base : Stack K .result) (c : Config K) : Prop :=
  ∀ t d, Run β (Unended base) c t d → d.CallsClient i base → d.Concludes β

theorem CallsAnswered.returned (callsAnswered : c.CallsAnswered β i base) (run : Run β (Unended base) c t d)
    (callsClient : d.CallsClient i base) : d.Comes β base fun e =>
      ∃ τ answer, e = ⟨d.shape, τ, .run (.done answer), d.stack⟩ := by
  obtain ⟨u, e, run', answered⟩ := callsAnswered t d run callsClient
  obtain ⟨w, frame, rest, stack, below⟩ := callsClient.above
  rw [stack] at run'
  exact ⟨u, e, (run'.aloft below (stack ▸ .refl)).1, answered⟩

end Config

theorem Next.react_goes {y : Component K} (made : σ.components[k]? = some y)
    (going : signal = .ready ∨ signal = .done) (stack : Stack K .unit) :
    ∃ d, react σ stack k signal = .ok d ∧ (d = ⟨.unit, σ, .run (.done ()), stack⟩ ∨
      ∃ call, d = ⟨.unit, σ, .call call, .push (.hosting k) stack⟩) := by
  have asks : ∃ d, requestRender σ stack k = .ok d ∧ (d = ⟨.unit, σ, .run (.done ()), stack⟩ ∨
      ∃ call, d = ⟨.unit, σ, .call call, .push (.hosting k) stack⟩) := by
    simp only [requestRender, made]
    split
    · exact ⟨_, rfl, .inl rfl⟩
    · exact ⟨_, rfl, .inr ⟨_, rfl⟩⟩
  unfold react
  split
  · rcases going with rfl | rfl
    · exact asks
    · exact asks
  · exact ⟨_, rfl, .inl rfl⟩

namespace Config

variable {c d : Config K} {t u : List (Config K × Config K)} {G : Config K → Prop}

def ComponentsExist (left : List (Observer K)) (σ : State K) : Prop :=
  ∀ k, .host k ∈ left → ∃ s, σ.settings? (.ofComponent k) = some s

theorem ComponentsExist.run (exist : ComponentsExist left c.state) (run : Run β G c t d) :
    ComponentsExist left d.state :=
  fun k mem => (exist k mem).imp fun s given => run.settled (.ofComponent k) s given

theorem CallsAnswered.delivered (callsAnswered : c.CallsAnswered β i base) (run : Run β (Unended base) c t d)
    (unended : d.Unended base) (step : d.step β =
      Next.deliver d.state (.push (.proceeding i) base) (.ofInstance i) signal left)
    (exist : ComponentsExist left d.state) (going : signal = .ready ∨ signal = .done) :
    d.Comes β base fun e =>
      ∃ τ, e = ⟨.unit, τ, .run (.done ()), .push (.proceeding i) base⟩ := by
  induction left generalizing t d with
  | nil => exact .of_step unended step (.here ⟨_, rfl⟩)
  | cons o rest ih =>
    have others : ComponentsExist rest d.state := fun k mem => exist k (List.mem_cons_of_mem o mem)
    -- Whoever has been told hands over to those who are left.
    have later : ∀ u τ, Run β (Unended base) d u ⟨.unit, τ, .run (.done ()),
        .push (.emitting (.ofInstance i) rest signal) (.push (.proceeding i) base)⟩ → _ :=
      fun u τ told => ih (run.append told) (unended_of_rests (.push .refl _) .refl) (step_done ..)
        (others.run told)
    cases o with
    | client o =>
      have called := run.snoc unended (.step step)
      refine .of_step unended step ?_
      refine (callsAnswered.returned called (.observer _ _ rest signal)).bind ?_
      rintro u _ told ⟨τ, answer, rfl⟩
      exact later _ τ (Run.append (.snoc .refl unended (.step step)) told)
    | host k =>
      obtain ⟨s, given⟩ := exist k (List.mem_cons_self ..)
      obtain ⟨y, made, -⟩ := Option.map_eq_some_iff.mp given
      obtain ⟨e, reacts, goes⟩ := Next.react_goes made going
        (.push (.emitting (.ofInstance i) rest signal) (.push (.proceeding i) base))
      rw [Next.deliver, reacts] at step
      refine .of_step unended step ?_
      have told := Run.snoc .refl unended (.step step)
      rcases goes with rfl | ⟨call, rfl⟩
      · exact later _ _ told
      · refine (callsAnswered.returned (run.append told) (.callback _ _ k rest signal)).bind ?_
        rintro u _ asked ⟨τ, answer, rfl⟩
        have back : Unended base ⟨.unit, τ, .run (.done answer), .push (.hosting k)
            (.push (.emitting (.ofInstance i) rest signal) (.push (.proceeding i) base))⟩ :=
          unended_of_rests (.push (.push .refl _) _) .refl
        exact .of_step back (step_done ..)
          (later _ τ ((told.append asked).snoc back (.step (step_done ..))))

variable {memory : K.Memory} {ambient : Bool} {code : Code K Unit} {limit : Nat}
  {h : History K.Artifact}

theorem Run.exist (run : Run β G (start { memory := memory, ambient := ambient } code) t c)
    (i : InstanceId) : ComponentsExist (c.state.registry (.ofInstance i)).observers c.state := by
  intro k mem
  obtain ⟨_, _, q, there, provides⟩ := run.heard.made k (.ofInstance i) mem
  obtain ⟨u, v, rfl⟩ := List.append_of_mem there
  obtain ⟨-, guard, follows, after⟩ := run.split rfl
  obtain ⟨s, given, -⟩ := follows.provides_settings provides
  exact ⟨s, (Run.append (.snoc .refl guard follows) after).settled _ s given⟩

def Resumes (i : InstanceId) (base : Stack K .result) (least : Nat) (d : Config K) : Prop :=
  ∃ τ, d = ⟨.result, τ, .advance i, base⟩ ∧ least ≤ (τ.history i).length

section Driven

variable (callsAnswered : c.CallsAnswered β i base)
  (first : Run β G (start { memory := memory, ambient := ambient } code) u c)

include callsAnswered first

theorem CallsAnswered.recorded (run : Run β (Unended base) c t d) (told : d.Extends i h base) :
    d.Comes β base (Resumes i base (h.length + 1)) := by
  obtain ⟨σ, e, signal, more, going⟩ := told
  have reached : Run β (fun _ => True) _ _ _ :=
    (first.imp fun _ _ => trivial).append (run.imp fun _ _ => trivial)
  refine (callsAnswered.delivered run (unended_of_rests .refl .refl) (step_emit ..)
    (reached.exist i) going).bind ?_
  rintro v _ told ⟨τ, rfl⟩
  refine .of_step (unended_of_rests .refl .refl) (step_done ..) (.here ⟨τ, rfl, ?_⟩)
  have longer : (σ.history i).length ≤ (τ.history i).length := (told.history_prefix i).length_le
  have appended : (σ.history i).length = h.length + 1 := by simp [more]
  exact appended.ge.trans longer

variable (found : c.state.instances[i]? = some x)

include found

theorem CallsAnswered.called {call : Call K s} {frame : Frame K s .result}
    (own : frame.driven? = some (i, n))
    (run : Run β (Unended base) c t ⟨s, σ, .call call, .push frame base⟩) :
    Comes β base (fun d => d.Answered base ∨ Resumes i base ((σ.history i).length + 1) d ∨
      frame.resumed? = some i ∧ d.Engages i n base ∧
        (σ.history i).length ≤ (d.state.history i).length)
      ⟨s, σ, .call call, .push frame base⟩ := by
  refine (callsAnswered.returned run (.step σ call frame own)).bind ?_
  rintro v _ back ⟨τ, answer, rfl⟩
  obtain ⟨y, there, -⟩ := (run.append back).grows i x found
  obtain ⟨d, step, goes⟩ := Next.resume_goes base own there answer
  have unended : Unended base ⟨s, τ, .run (.done answer), .push frame base⟩ :=
    unended_of_rests .refl .refl
  have resumes : Config.step β ⟨s, τ, .run (.done answer), .push frame base⟩ = .ok d :=
    (step_done ..).trans step
  refine .of_step unended resumes ?_
  have longer : (σ.history i).length ≤ (τ.history i).length := (back.history_prefix i).length_le
  have reached := (run.append back).snoc unended (.step resumes)
  rcases goes with answered | told | ⟨resumed, engages⟩
  · exact .here (.inl answered)
  · have told : d.Extends i (τ.history i) base := told
    refine (callsAnswered.recorded first reached told).bind ?_
    rintro _ _ - ⟨υ, rfl, least⟩
    exact .here (.inr (.inl ⟨υ, rfl, by omega⟩))
  · have longer' := (Follows.longer (.step resumes) i : _ ≤ (d.state.history i).length)
    exact .here (.inr (.inr ⟨resumed, engages, longer.trans longer'⟩))

theorem CallsAnswered.stepped {call : Call K s} {frame : Frame K s .result}
    (own : frame.driven? = some (i, n))
    (run : Run β (Unended base) c t ⟨s, σ, .call call, .push frame base⟩) :
    Comes β base (fun d => d.Answered base ∨ Resumes i base ((σ.history i).length + 1) d)
      ⟨s, σ, .call call, .push frame base⟩ := by
  refine (callsAnswered.called first found own run).bind ?_
  rintro v d gone (answered | resumes | ⟨-, engages, longer⟩)
  · exact .here (.inl answered)
  · exact .here (.inr resumes)
  · obtain ⟨τ, frame', call', own', other⟩ := engages
    refine (callsAnswered.called first found own' (run.append gone)).bind ?_
    rintro v' d' - (answered | ⟨υ, rfl, least⟩ | ⟨resumed, -⟩)
    · exact .here (.inl answered)
    · have longer : (σ.history i).length ≤ (τ.history i).length := longer
      exact .here (.inr ⟨υ, rfl, by omega⟩)
    · cases other.symm.trans resumed

/-- A drive with a limit is answered. The room that is left in the history when it comes to a
step is less than it was at the step before. -/
theorem CallsAnswered.ends (limited : x.settings.limit = some limit)
    (unlocked : base.locksInstance i = false)
    (run : Run β (Unended base) c t ⟨.result, σ, .advance i, base⟩) :
    Comes β base (Answered base) ⟨.result, σ, .advance i, base⟩ := by
  induction room : limit - (σ.history i).length using Nat.strong_induction_on generalizing t σ with
  | _ room less =>
    obtain ⟨y, there, settings⟩ := run.kept_settings found
    have there : σ.instances[i]? = some y := there
    obtain ⟨d, step, goes⟩ := Next.startStep_goes unlocked there
    have starts : Config.step β ⟨.result, σ, .advance i, base⟩ = .ok d := step
    have unended : Unended base ⟨.result, σ, .advance i, base⟩ := by rintro _ _ ⟨⟩
    refine .of_step unended starts ?_
    have reached := run.snoc unended (.step starts)
    rcases goes with answered | ⟨roomy, τ, call, rfl⟩
    · exact .here answered
    · refine (callsAnswered.stepped first found rfl reached).bind ?_
      rintro v e gone (answered | ⟨υ, rfl, least⟩)
      · exact .here answered
      · have short := roomy limit (settings ▸ limited)
        have longer : (σ.history i).length ≤ (τ.history i).length := Follows.longer (.step starts) i
        rw [← State.history_of_found there] at short
        exact less _ (by omega) (reached.append gone) rfl

end Driven

end Config

open Config in
/-- Along every run from an empty machine, drives resume the procedure of an instance no more often
than its limit says, however many of them there are. One drive comes to no more steps than the
history has room for when it begins, and one more, whatever is done meanwhile by the code that it
calls. If all that code comes to an answer, so does the drive; except one that is asked for by a
producer or by a replayed step of the instance, which comes to nothing, nor does the code that asks
for it. -/
theorem bounded_drive {memory : K.Memory} {ambient : Bool} {code : Code K Unit}
    {t : List (Config K × Config K)} {c : Config K} {limit : Nat}
    (run : Run β (fun _ => True) (start { memory := memory, ambient := ambient } code) t c)
    (found : c.state.instances[i]? = some x) (limited : x.settings.limit = some limit) :
    t.countP (·.2.drives i) ≤ limit ∧
    ∀ σ base, c = ⟨.result, σ, .advance i, base⟩ →
      (∀ u d, Run β (Unended base) c u d →
        turns i base.depth c u ≤ (limit - x.history.length) + 1) ∧
      (base.locksInstance i = true → c.step β = .error .blocked) ∧
      (base.locksInstance i = false →
        (∀ u d, Run β (Unended base) c u d → d.CallsClient i base → d.Concludes β) →
        ∃ u d, Run β (Unended base) c u d ∧ d.Answered base) := by
  refine ⟨run.drives_le found limited, ?_⟩
  rintro σ base rfl
  refine ⟨fun u d drive => (Run.loops found limited drive).room, fun locked => ?_, ?_⟩
  · rw [step_advance, Next.startStep, Next.withInstance, if_pos locked]
  · exact fun unlocked returns => CallsAnswered.ends returns run found limited unlocked .refl

namespace Sketch

open Config

def runawayCode : Code client Unit :=
  .call .newMemo fun m =>
    .call (.newInstance { moves := [.show, .hold (.int 1), .compute (.int 2) [], .show, .show] } m
      { limit := some 3 }) fun i =>
      .call (.subscribe (.ofInstance i) ()) fun _ =>
        .call (.proceed i) fun _ => .done ()

def runaway : Config client :=
  Config.after behaviour 7 (.start { memory := () } runawayCode)

theorem returns_at_once {s : Shape} (σ : State client) (call : Call client s)
    (stack : Stack client s) : Config.Concludes behaviour ⟨s, σ, .call call, stack⟩ := by
  have answers : ∃ answer, behaviour.code call = .done answer := by
    cases call <;> exact ⟨_, rfl⟩
  obtain ⟨answer, answers⟩ := answers
  refine ⟨_, _, .snoc .refl (by rintro _ _ ⟨⟩) (.step rfl), σ, answer, ?_⟩
  rw [answers]

theorem returns_of_callsClient {i : InstanceId} {base : Stack client .result} {c : Config client}
    (callsClient : c.CallsClient i base) : c.Concludes behaviour := by
  cases callsClient <;> exact returns_at_once _ _ _

theorem unended_of_waits {s : Shape} {stack : Stack client s} (c : Config client)
    (waits : pending stack.depth c = true) : c.Unended stack := by
  rintro σ result rfl
  cases result <;> simp [pending, Code.ended] at waits

theorem runaway_bounded :
    (Config.trail behaviour 32 (.start { memory := () } runawayCode)).countP (·.2.drives 0) ≤ 3 ∧
    turns 0 1 runaway (Config.trail behaviour 24 runaway) ≤ 4 ∧
    ∃ (base : Stack client .result) (u : List (Config client × Config client)) (d : Config client),
      Run behaviour (Unended base) runaway u d ∧ d.Answered base := by
  have whole : Run behaviour (fun _ => True) (.start { memory := () } runawayCode) _
      (Config.after behaviour 32 (.start { memory := () } runawayCode)) :=
    .walk_all 32 _
  have upto : Run behaviour (fun _ => True) (.start { memory := () } runawayCode) _ runaway :=
    .walk_all 7 _
  obtain ⟨few, -⟩ := bounded_drive whole (i := 0) rfl rfl
  obtain ⟨-, drive⟩ := bounded_drive upto (i := 0) rfl rfl
  obtain ⟨turns, -, ends⟩ := drive _ (.push (.waiting _) .empty) rfl
  exact ⟨few, turns _ _ (.walk unended_of_waits 24 runaway (by decide +kernel)), _,
    ends rfl fun _ _ _ callsClient => returns_of_callsClient callsClient⟩

example : turns 0 1 runaway (Config.trail behaviour 24 runaway) = 4 := by
  decide +kernel

end Sketch

end Resumable
