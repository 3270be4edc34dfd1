import Resumable.Proofs.FamilyState
import Resumable.Proofs.Transition

namespace Resumable

variable {K : Client} {β : Behaviour K}

def Shape.Quiet : Shape → Prop
  | result => False
  | _ => True

theorem State.status?_modifyInstance_ne (σ : State K) {i j : InstanceId} (h : i ≠ j)
    (f : Instance K → Instance K) : (σ.modifyInstance i f).status? j = σ.status? j := by
  rw [State.status?, State.instances_modifyInstance_ne σ h, State.status?]

namespace Config

theorem tells_answer {i : InstanceId} {before σ : State K} {s : Shape} {stack : Stack K s}
    {code : Code K (s.Answer K)} (quiet : s.Quiet) :
    tells i before ⟨s, σ, .run code, stack⟩ = [] := by
  cases code with
  | done answer => cases s <;> first | rfl | exact quiet.elim
  | panic => cases s <;> rfl
  | read => cases s <;> rfl
  | write => cases s <;> rfl
  | call => cases s <;> rfl

end Config

namespace Family

variable {M : Meaning β} (F : Family M)

def Leads (seen : InstanceId → List Event) (before : State K) (d : Config K) : Prop :=
  ∃ seen', F.Inv seen' d ∧ (F.replays = false → ∀ i x, F.Member before i x →
    seen' i = seen i ++ d.tells i before)

def Proceeds (seen : InstanceId → List Event) (c d : Config K) : Prop :=
  ∃ seen', F.Inv seen' d ∧ (F.replays = false → ∀ i x, F.Member c.state i x →
    seen' i = seen i ++ c.events i d)

variable {F} {σ before : State K} {i : InstanceId} {x : Instance K}
  {seen : InstanceId → List Event} {s w : Shape} {stack : Stack K s}

theorem Leads.proceeds {c d : Config K} (leads : F.Leads seen c.state d)
    (idle : ∀ i x, F.Member c.state i x → c.starts i = []) : F.Proceeds seen c d := by
  obtain ⟨seen', inv, told⟩ := leads
  refine ⟨seen', inv, fun alone i x member => ?_⟩
  rw [told alone i x member, Config.events, idle i x member, List.nil_append]

theorem Leads.quiet {control : Control K s} (ok : F.StateOk seen none σ) (clear : F.Clear σ stack)
    (silent : ∀ i x, F.Member before i x →
      Config.tells i before ⟨s, σ, control, stack⟩ = []) :
    F.Leads seen before ⟨s, σ, control, stack⟩ :=
  ⟨seen, .quiet ok clear, fun _ i x member => by rw [silent i x member, List.append_nil]⟩

theorem Leads.run {code : Code K (s.Answer K)} (ok : F.StateOk seen none σ)
    (clear : F.Clear σ stack)
    (same : ∀ i x, F.Member before i x → σ.status? i = before.status? i) :
    F.Leads seen before ⟨s, σ, .run code, stack⟩ :=
  .quiet ok clear fun i x member => Config.tells_run (same i x member)

theorem Leads.answer {code : Code K (s.Answer K)} (ok : F.StateOk seen none σ)
    (clear : F.Clear σ stack) (quiet : s.Quiet) :
    F.Leads seen before ⟨s, σ, .run code, stack⟩ :=
  .quiet ok clear fun _ _ _ => Config.tells_answer quiet

theorem Leads.elsewhere {σ' : State K} {code : Code K (s.Answer K)} (ok : F.StateOk seen none σ)
    (clear : F.Clear σ stack) (instances : σ'.instances = σ.instances)
    (memo : σ'.memo F.memo = σ.memo F.memo) (tasks : σ'.tasks = σ.tasks) (quiet : s.Quiet) :
    F.Leads seen before ⟨s, σ', .run code, stack⟩ :=
  .answer (ok.of_same instances memo tasks) (clear.mono (.of_instances instances)) quiet

theorem Leads.call {c : Call K s} (ok : F.StateOk seen none σ) (clear : F.Clear σ stack) :
    F.Leads seen before ⟨s, σ, .call c, stack⟩ :=
  .quiet ok clear fun _ _ _ => rfl

theorem Leads.advance {stack : Stack K .result} (ok : F.StateOk seen none σ)
    (clear : F.Clear σ stack) : F.Leads seen before ⟨.result, σ, .advance i, stack⟩ :=
  .quiet ok clear fun _ _ _ => rfl

theorem Leads.emit {stack : Stack K .unit} {source : Source} {signal : Signal K.Artifact}
    (ok : F.StateOk seen none σ) (clear : F.Clear σ stack)
    (other : ∀ i x, F.Member before i x → source = .ofInstance i → signal.event? = none) :
    F.Leads seen before ⟨.unit, σ, .emit source signal, stack⟩ := by
  refine .quiet ok clear fun i x member => ?_
  cases source with
  | free id => rfl
  | ofInstance j =>
    rw [Config.tells_emit]
    split
    · next same => rw [other i x member (same ▸ rfl)]; rfl
    · rfl

theorem Leads.of_seen {seen' : InstanceId → List Event} {d : Config K}
    (leads : F.Leads seen' before d) (same : ∀ i x, F.Member before i x → seen' i = seen i) :
    F.Leads seen before d := by
  obtain ⟨seen'', inv, told⟩ := leads
  exact ⟨seen'', inv, fun alone i x member => by rw [told alone i x member, same i x member]⟩

theorem Leads.emit_foreign {stack : Stack K .unit} {signal : Signal K.Artifact}
    (ok : F.StateOk seen none σ) (clear : F.Clear σ stack) (foreign : F.Foreign before i) :
    F.Leads seen before ⟨.unit, σ, .emit (.ofInstance i) signal, stack⟩ :=
  .emit ok clear fun j x member same => by
    cases same
    exact (foreign.not_member member).elim

section

variable {f : Instance K → Instance K}

theorem Leads.give_foreign {stack : Stack K .result} {result : Except Fault Unit}
    (ok : F.StateOk seen none σ) (clear : F.Clear σ stack) (foreign : F.Foreign σ i)
    (memo : ∀ x, (f x).memo = x.memo) (settings : ∀ x, (f x).settings = x.settings) :
    F.Leads seen σ ⟨.result, σ.modifyInstance i f, .run (.done result), stack⟩ :=
  .run (ok.modify_foreign foreign memo settings) (clear.mono (.modifyInstance i memo))
    fun _ _ member => σ.status?_modifyInstance_ne (foreign.ne member) _

theorem Leads.call_foreign {c : Call K s} {frame : Frame K s w} {stack : Stack K w}
    (ok : F.StateOk seen none σ) (clear : F.Clear σ stack) (foreign : F.Foreign σ i)
    (worker : frame.worker? = some i) (memo : ∀ x, (f x).memo = x.memo)
    (settings : ∀ x, (f x).settings = x.settings) :
    F.Leads seen before ⟨s, σ.modifyInstance i f, .call c, .push frame stack⟩ := by
  have keeps : σ.Keeps (σ.modifyInstance i f) := .modifyInstance i memo
  refine .call (ok.modify_foreign foreign memo settings) ((clear.mono keeps).push fun j own => ?_)
  cases worker.symm.trans own
  exact foreign.mono keeps

theorem Leads.tell_foreign {σ' : State K} {signal : Signal K.Artifact} {frame : Frame K .unit w}
    {stack : Stack K w} (ok : F.StateOk seen none σ') (keeps : σ.Keeps σ')
    (clear : F.Clear σ stack) (foreign : F.Foreign σ i) (idle : frame.worker? = none)
    (memo : ∀ x, (f x).memo = x.memo) (settings : ∀ x, (f x).settings = x.settings) :
    F.Leads seen σ ⟨.unit, σ'.modifyInstance i f, .emit (.ofInstance i) signal, .push frame stack⟩ :=
  .emit_foreign (ok.modify_foreign (foreign.mono keeps) memo settings)
    (Clear.idle (clear.mono (keeps.trans (.modifyInstance i memo))) idle) foreign

end

theorem Foreign.other (foreign : F.Foreign σ i) (found : σ.instances[i]? = some x) :
    x.memo ≠ F.memo := by
  obtain ⟨x', found', other⟩ := foreign
  cases found.symm.trans found'
  exact other

end Family

def Stack.worker? {s : Shape} : Stack K s → Option InstanceId
  | .empty => none
  | .push frame _ => frame.worker?

/-- The instance that a configuration goes on with. -/
def Config.worker? : Config K → Option InstanceId
  | ⟨_, _, .advance i, _⟩ => some i
  | ⟨_, _, _, stack⟩ => stack.worker?

namespace Family

variable {M : Meaning β} {F : Family M} {σ σ' : State K} {seen : InstanceId → List Event}
  {c d : Config K} {s w : Shape} {stack : Stack K .unit}

theorem Clear.foreign {stack : Stack K s} (clear : F.Clear σ stack) {i : InstanceId}
    (worker : stack.worker? = some i) : F.Foreign σ i := by
  cases stack with
  | empty => cases worker
  | push => exact clear.top worker

theorem Draining.clear (draining : c.Draining stack) (clear : F.Clear c.state c.stack) :
    F.Clear c.state stack := by
  cases draining with
  | asked => exact clear.idle rfl
  | again => exact clear.rest

theorem Delivering.clear {source : Source} {signal : Signal K.Artifact}
    {observers : List (Observer K)} (delivering : c.Delivering source signal observers stack)
    (clear : F.Clear c.state c.stack) : F.Clear c.state stack := by
  cases delivering with
  | sent => exact clear
  | further => exact clear.rest

theorem Reacting.clear {k : ComponentId} {signal : Signal K.Artifact}
    (reacting : c.Reacting k signal stack) (clear : F.Clear c.state c.stack) :
    F.Clear c.state stack := by
  cases reacting with
  | intro delivering => exact (Delivering.clear delivering clear).idle rfl

theorem Requesting.clear {k : ComponentId} (requesting : c.Requesting k stack)
    (clear : F.Clear c.state c.stack) : F.Clear c.state stack := by
  cases requesting with
  | told reacting => exact Reacting.clear reacting clear
  | adopted => exact clear.rest

theorem Completes.clear {task : Task K} {outcome : Except Failure Value}
    (completes : c.Completes stack task outcome) (clear : F.Clear c.state c.stack) :
    F.Clear c.state stack ∧ F.Foreign c.state task.owner := by
  cases completes with
  | answered => exact ⟨clear.rest, clear.top rfl⟩
  | panicked => exact ⟨clear.rest, clear.top rfl⟩

theorem Dismisses.keeps {stack : Stack K s} {k : ComponentId} {y : Component K}
    (dismisses : σ.Dismisses stack k y σ') : σ.Keeps σ' := by
  cases dismisses with
  | vacant => exact .refl σ
  | taken => exact .dismiss σ k _

theorem StateOk.dismisses {replayed : Option InstanceId} (ok : F.StateOk seen replayed σ)
    {stack : Stack K s} {k : ComponentId} {y : Component K}
    (dismisses : σ.Dismisses stack k y σ') : F.StateOk seen replayed σ' := by
  cases dismisses with
  | vacant => exact ok
  | taken => exact ok.dismiss k _

/-- The steps of an instance that is not of the family. -/
theorem drive_leads (step : c.DriveStep d) (ok : F.StateOk seen none c.state)
    (clear : F.Clear c.state c.stack) (foreign : ∀ i, c.worker? = some i → F.Foreign c.state i) :
    F.Leads seen c.state d := by
  cases step with
  | idle => exact .run ok clear fun _ _ _ => rfl
  | refused => exact .give_foreign ok clear (foreign _ rfl) (fun _ => rfl) fun _ => rfl
  | started => exact .call_foreign ok clear (foreign _ rfl) rfl (fun _ => rfl) fun _ => rfl
  | overtaken => exact .give_foreign ok clear.rest (foreign _ rfl) (fun _ => rfl) fun _ => rfl
  | failed => exact .give_foreign ok clear.rest (foreign _ rfl) (fun _ => rfl) fun _ => rfl
  | completed =>
    exact .tell_foreign ok (.refl _) clear.rest (foreign _ rfl) rfl (fun _ => rfl) fun _ => rfl
  | recorded =>
    exact .tell_foreign ok (.refl _) clear.rest (foreign _ rfl) rfl (fun _ => rfl) fun _ => rfl
  | computing => exact .call_foreign ok clear.rest (foreign _ rfl) rfl (fun _ => rfl) fun _ => rfl
  | launching => exact .call_foreign ok clear.rest (foreign _ rfl) rfl (fun _ => rfl) fun _ => rfl
  | stranded => exact .give_foreign ok clear.rest (foreign _ rfl) (fun _ => rfl) fun _ => rfl
  | outdated n keys v rest found =>
    exact .run (ok.remember_foreign ((foreign _ rfl).other found) n keys v)
      (clear.rest.mono (.of_instances rfl)) fun _ _ _ => rfl
  | computed n keys v rest found =>
    exact .tell_foreign (ok.remember_foreign ((foreign _ rfl).other found) n keys v)
      (.of_instances rfl) clear.rest (foreign _ rfl) rfl (fun _ => rfl) fun _ => rfl
  | launched =>
    exact .run (ok.enqueue (.foreign (foreign _ rfl))) (clear.rest.mono (.of_instances rfl))
      fun _ _ _ => rfl
  | proceeded => exact .advance ok clear.rest

/-- A task of the family may be polled next; those that are over are not of the family. -/
theorem task_leads (sound : M.Sound) (step : c.TaskStep d) (ok : F.StateOk seen none c.state)
    (clear : F.Clear c.state c.stack) : F.Leads seen c.state d := by
  cases step with
  | gone completes => exact .answer ok (Completes.clear completes clear).1 trivial
  | ignored completes => exact .answer ok (Completes.clear completes clear).1 trivial
  | settled completes found _ _ stored =>
    obtain ⟨clear, foreign⟩ := Completes.clear completes clear
    rcases stored with rfl | ⟨keys, -, rfl⟩
    · exact .tell_foreign ok (.refl _) clear foreign rfl (fun _ => rfl) fun _ => rfl
    · exact .tell_foreign (ok.remember_foreign (foreign.other found) _ _ _) (.of_instances rfl) clear
        foreign rfl (fun _ => rfl) fun _ => rfl
  | rejected completes =>
    obtain ⟨clear, foreign⟩ := Completes.clear completes clear
    exact .tell_foreign ok (.refl _) clear foreign rfl (fun _ => rfl) fun _ => rfl
  | told => exact .answer ok clear.rest trivial
  | spared => exact .answer ok clear.rest trivial
  | postponed =>
    exact .answer (ok.enqueue (.foreign (clear.top rfl))) (clear.rest.mono (.of_instances rfl)) trivial
  | parked σ task gate future =>
    have new : F.TaskOk σ { task with future := future } := .foreign (clear.top rfl)
    exact .answer (ok.park new gate) (clear.rest.mono (.of_instances rfl)) trivial
  | @polled c stack task later draining ready =>
    have ok' : F.StateOk seen none { c.state with ready := later } :=
      ok.of_instances rfl rfl fun t mem => by
        simp only [State.tasks, ready, List.cons_append, List.mem_cons]
        exact .inr mem
    have clear' : F.Clear { c.state with ready := later } (.push .draining stack) :=
      Clear.idle ((Draining.clear draining clear).mono (.of_instances rfl)) rfl
    cases ok.tasks task (by simp [State.tasks, ready]) with
    | foreign owner => exact .call ok' (clear'.push fun j worker => by cases worker; exact owner)
    | own owner settled awaits =>
      exact ⟨seen, .polling ok' clear' owner awaits (sound.poll settled), fun _ _ _ _ => by simp⟩
  | drained => exact .answer ok clear.rest trivial

theorem signal_leads (step : c.SignalStep d) (ok : F.StateOk seen none c.state)
    (clear : F.Clear c.state c.stack) : F.Leads seen c.state d := by
  cases step with
  | delivered delivering => exact .answer ok (Delivering.clear delivering clear) trivial
  | noticed delivering => exact .call ok ((Delivering.clear delivering clear).idle rfl)
  | unheld delivering => exact .answer ok ((Delivering.clear delivering clear).idle rfl) trivial
  | marked requesting => exact .answer ok (Requesting.clear requesting clear) trivial
  | requested requesting => exact .call ok ((Requesting.clear requesting clear).idle rfl)
  | bare reacting => exact .answer ok (Reacting.clear reacting clear) trivial
  | forked reacting _ _ _ dismisses =>
    exact .call (ok.dismisses dismisses)
      (Clear.idle ((Reacting.clear reacting clear).mono (Dismisses.keeps dismisses)) rfl)
  | rejected reacting =>
    exact .call (ok.of_same rfl rfl rfl)
      (Clear.idle ((Reacting.clear reacting clear).mono (.of_instances rfl)) rfl)
  | hosted => exact .answer ok clear.rest trivial

end Family

end Resumable
