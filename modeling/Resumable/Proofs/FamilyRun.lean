import Resumable.Proofs.FamilyReplay
import Resumable.Proofs.Growth

namespace Resumable

variable {K : Client} {β : Behaviour K}

namespace Family

variable {M : Meaning β} {F : Family M} {σ σ' : State K} {seen : InstanceId → List Event}
  {s w : Shape} {stack : Stack K s} {c d : Config K}

theorem replied_leads {request : Request K w} {next : w.Answer K → Code K (s.Answer K)}
    {answer : w.Answer K} (replies : σ.Replies (.push (.waiting next) stack) request σ' answer)
    (ok : F.StateOk seen none σ) (clear : F.Clear σ stack)
    (permits : F.Permits ⟨s, σ, .run (.call request next), stack⟩) :
    F.Leads seen σ ⟨w, σ', .run (.done answer), .push (.waiting next) stack⟩ := by
  have clear' : F.Clear σ (.push (.waiting next) stack) := clear.idle rfl
  cases replies with
  | newMemo => exact .elsewhere ok clear' rfl (State.memo_newMemo _ _) rfl trivial
  | remember m n keys v =>
    exact .answer (ok.remember_foreign permits n keys v) (clear'.mono (.of_instances rfl)) trivial
  | clearMemo m =>
    exact .answer (ok.clearMemo m permits) (clear'.mono (.of_instances rfl)) trivial
  | subscribe source =>
    exact .answer (ok.modify_registry source fun _ => rfl) (clear'.mono (.modifyRegistry source _))
      trivial
  | unsubscribe source =>
    exact .answer (ok.modify_registry source fun _ => rfl) (clear'.mono (.modifyRegistry source _))
      trivial
  | newInstance p m settings =>
    exact .founded (.answer (ok.newInstance p m settings []
      fun own => ⟨(permits own).1, .inl (permits own).2⟩)
      (clear'.mono (.newInstance p m settings [])) trivial)
  | replay => exact .run ok clear' fun _ _ _ => rfl
  | terminate =>
    exact .answer (ok.terminate _) (clear'.mono (.modifyInstance _ fun _ => rfl)) trivial
  | newComponent => exact .elsewhere ok clear' rfl (State.memo_newMemo _ _) rfl trivial
  | reset _ _ dismisses =>
    exact .elsewhere (ok.dismisses dismisses) (clear'.mono (Dismisses.keeps dismisses)) rfl
      (State.memo_newMemo _ _) rfl trivial
  | unmount _ _ dismisses =>
    exact .answer (ok.dismisses dismisses) (clear'.mono (Dismisses.keeps dismisses)) trivial
  | openGate gate => exact .answer (ok.openGate gate) (clear'.mono (.of_instances rfl)) trivial
  | newRegistry => exact .elsewhere ok clear' rfl rfl rfl trivial
  | closeRegistry => exact .elsewhere ok clear' rfl rfl rfl trivial
  | takeFault => exact .elsewhere ok clear' rfl rfl rfl trivial
  | retain => exact .elsewhere ok clear' rfl rfl rfl trivial
  | release => exact .elsewhere ok clear' rfl rfl rfl trivial
  | _ => exact .answer ok clear' trivial

theorem code_leads (step : Config.CodeStep β c d) (ok : F.StateOk seen none c.state)
    (clear : F.Clear c.state c.stack) (permits : F.Permits c) : F.Leads seen c.state d := by
  cases step with
  | entered => exact .run ok clear fun _ _ _ => rfl
  | read => exact .run ok clear fun _ _ _ => rfl
  | wrote =>
    exact .run (ok.of_same rfl rfl rfl) (clear.mono (.of_instances rfl)) fun _ _ _ => rfl
  | replied replies => exact replied_leads replies ok clear permits
  | called => exact .call ok (clear.idle rfl)
  | emitted => exact .emit ok (clear.idle rfl) fun _ _ _ same => by cases same
  | fired => exact .emit ok (clear.idle rfl) fun _ _ _ _ => rfl
  | driven => exact .advance ok (clear.idle rfl)
  | answered => exact .run ok clear.rest fun _ _ _ => rfl
  | dropped => exact .run ok clear.rest fun _ _ _ => rfl
  | begun => exact .answer (ok.of_same rfl rfl rfl) trivial trivial

theorem transition_leads [Nonempty K.Memory] (sound : M.Sound) (transition : Config.Transition β c d)
    (ok : F.StateOk seen none c.state) (clear : F.Clear c.state c.stack) (permits : F.Permits c)
    (foreign : ∀ i, c.worker? = some i → F.Foreign c.state i) : F.Leads seen c.state d := by
  cases transition with
  | code step => exact code_leads step ok clear permits
  | drive step => exact drive_leads step ok clear foreign
  | replay step => exact replay_leads sound step ok clear permits
  | task step => exact task_leads sound step ok clear
  | signal step => exact signal_leads step ok clear
  | host step => exact host_leads sound step ok clear permits

theorem driven_proceeds [Nonempty K.Memory] (sound : M.Sound) {stack : Stack K .result}
    {i : InstanceId} (step : Config.DriveStep ⟨.result, σ, .advance i, stack⟩ d)
    (ok : F.StateOk seen none σ) (clear : F.Clear σ stack) :
    F.Proceeds seen ⟨.result, σ, .advance i, stack⟩ d := by
  obtain ⟨x, found⟩ : ∃ x, σ.instances[i]? = some x := by
    cases step with
    | idle _ found => exact ⟨_, found⟩
    | refused _ found => exact ⟨_, found⟩
    | started _ found => exact ⟨_, found⟩
  rcases F.member_or_foreign found with member | foreign
  · exact driven_member sound ok clear member step
  · have leads : F.Leads seen σ d := by
      refine drive_leads step ok clear ?_
      rintro _ ⟨⟩
      exact foreign
    exact leads.proceeds fun j y member => if_neg fun h => foreign.ne member h.1

section Silent

variable {control : Control K s} {Q : Except Payload (s.Answer K) → Prop} {c : Config K}

theorem proceeds_of_only (only : control.Only β Q) (quiet : s.Quiet) {memory : K.Memory}
    {control' : Control K s} (only' : control'.Only β Q)
    (inv : F.Inv seen ⟨s, { σ with memory := memory }, control', stack⟩) :
    F.Proceeds seen ⟨s, σ, control, stack⟩ ⟨s, { σ with memory := memory }, control', stack⟩ := by
  refine ⟨seen, inv, fun _ i x _ => ?_⟩
  have idle : Config.starts i ⟨s, σ, control, stack⟩ = [] := by
    cases control with
    | run => rfl
    | call => rfl
    | emit => exact only.elim
    | advance => exact only.elim
  have silent : Config.tells i σ ⟨s, { σ with memory := memory }, control', stack⟩ = [] := by
    cases control' with
    | run => exact Config.tells_answer quiet
    | call => rfl
    | emit => exact only'.elim
    | advance => exact only'.elim
  rw [Config.events, idle, silent, List.append_nil, List.append_nil]

theorem step_of_only (only : control.Only β Q) (quiet : s.Quiet)
    (ended : ∀ r, Q r → (Config.step β ⟨s, σ, .run (.ended r), stack⟩).Holds
      (F.Proceeds seen ⟨s, σ, .run (.ended r), stack⟩))
    (goes : ∀ memory control', control'.Only β Q →
      F.Inv seen ⟨s, { σ with memory := memory }, control', stack⟩) :
    (Config.step β ⟨s, σ, control, stack⟩).Holds (F.Proceeds seen ⟨s, σ, control, stack⟩) := by
  rcases only.cases σ stack with ⟨r, came, rfl⟩ | ⟨memory, control', only', step⟩
  · exact ended r came
  · rw [step]
    exact Next.holds_ok.mpr (proceeds_of_only only quiet only' (goes memory control' only'))

end Silent

/-- Every step keeps the invariant of a family, and what it tells of a member is what the member's
plan has told. -/
theorem Inv.step {c : Config K} (sound : M.Sound) (inv : F.Inv seen c) (admits : F.Admits c) :
    (c.step β).Holds (F.Proceeds seen c) := by
  have : Nonempty K.Memory := ⟨c.state.memory⟩
  have keeps : ∀ (σ : State K) memory, σ.Keeps { σ with memory := memory } :=
    fun σ memory => .of_instances rfl
  cases inv with
  | @quiet s σ control stack ok clear =>
    have leads : (∀ i, Config.worker? ⟨s, σ, control, stack⟩ = some i → F.Foreign σ i) →
        (∀ i x, F.Member σ i x → Config.starts i ⟨s, σ, control, stack⟩ = []) →
        (Config.step β ⟨s, σ, control, stack⟩).Holds (F.Proceeds seen ⟨s, σ, control, stack⟩) :=
      fun foreign idle d step => Leads.proceeds
        (transition_leads sound (Config.transition_of_step step) ok clear admits.permits foreign) idle
    cases control with
    | run code => exact leads (fun _ => clear.foreign) fun _ _ _ => rfl
    | call c => exact leads (fun _ => clear.foreign) fun _ _ _ => rfl
    | emit source signal => exact leads (fun _ => clear.foreign) fun _ _ _ => rfl
    | advance i =>
      rw [Config.step_advance]
      exact (Next.startStep_transition stack).imp fun d step => driven_proceeds sound step ok clear
  | @stepping σ _ rest i x r ok clear member status lent answers gives =>
    refine step_of_only gives trivial ?_ fun memory _ gives' =>
      .stepping (ok.of_same rfl rfl rfl) (clear.mono (keeps σ memory)) member status lent answers gives'
    rintro r' rfl
    cases r' with
    | error payload =>
      exact Next.holds_run.mpr (Leads.proceeds (.run ok clear fun _ _ _ => rfl) fun _ _ _ => rfl)
    | ok answer =>
      exact (Next.finishStep_transition rest).imp fun d step => Leads.proceeds
        (answered_member sound ok clear member status lent answers admits.ambient step) fun _ _ _ => rfl
  | @computing σ _ rest i x c keys q o ok clear member status procedure asks computed missed gives =>
    refine step_of_only gives trivial (fun r came => ?_) fun memory _ gives' =>
      .computing (ok.of_same rfl rfl rfl) (clear.mono (keeps σ memory)) member status procedure asks
        computed missed gives'
    cases r with
    | error payload =>
      exact Next.holds_run.mpr (Leads.proceeds (.run ok clear fun _ _ _ => rfl) fun _ _ _ => rfl)
    | ok v =>
      subst came
      exact (Next.finishComputation_transition rest keys v).imp fun d step => Leads.proceeds
        (computed_member ok clear member status procedure asks computed missed step) fun _ _ _ => rfl
  | @launching σ _ rest i x p keys q o ok clear member status procedure asks produced missed gives =>
    refine step_of_only gives trivial (fun r came => ?_) fun memory _ gives' =>
      .launching (ok.of_same rfl rfl rfl) (clear.mono (keeps σ memory)) member status procedure asks
        produced missed gives'
    cases r with
    | error payload =>
      exact Next.holds_run.mpr (Leads.proceeds (.run ok clear fun _ _ _ => rfl) fun _ _ _ => rfl)
    | ok future =>
      exact Next.holds_give.mpr (Leads.proceeds (launched_member ok clear member status procedure asks
        produced missed came (.launched σ i _ keys future rest)) fun _ _ _ => rfl)
  | @polling σ _ rest x task o ok clear member awaits gives =>
    refine step_of_only gives trivial (fun r came => ?_) fun memory _ gives' =>
      .polling (ok.of_same rfl rfl rfl) (clear.mono (keeps σ memory)) member awaits gives'
    have finished : ∀ {c : Config K}, c.Completes rest task o → c.state = σ →
        (∀ i, c.starts i = []) → (Next.settle c.state rest task o).Holds (F.Proceeds seen c) := by
      rintro c completes rfl idle
      exact (Next.settle_transition completes).imp fun d step => Leads.proceeds
        (settled_member completes ok clear member awaits step) fun i _ _ => idle i
    cases r with
    | error payload =>
      obtain rfl : Except.error (.panicked payload) = o := came
      exact finished (.panicked σ payload) rfl fun _ => rfl
    | ok progress =>
      have task' : ∀ future, M.settled future = some o → F.TaskOk σ { task with future := future } :=
        fun future settled => .own member settled (awaits.later future)
      have waiting : ∀ {σ' : State K}, σ'.instances = σ.instances →
          F.StateOk seen none σ' →
          F.Proceeds seen ⟨.progress, σ, .run (.done progress), .push (.polling task) rest⟩
            ⟨.unit, σ', .run (.done ()), rest⟩ := fun same ok' =>
        Leads.proceeds (.answer ok' (clear.mono (.of_instances same)) trivial) fun _ _ _ => rfl
      cases progress with
      | ready r =>
        obtain rfl : r.mapError .failed = o := came
        exact finished (.answered σ r) rfl fun _ => rfl
      | later future => exact Next.holds_give.mpr (waiting rfl (ok.enqueue (task' future came)))
      | parked gate future =>
        exact Next.holds_give.mpr (waiting rfl (ok.park (task' future came) gate))
  | @replaying σ _ rest i x entry later r allowed ok clear member status lawful answers gives =>
    refine step_of_only gives trivial ?_ fun memory _ gives' =>
      .replaying allowed (ok.of_same rfl rfl rfl) (clear.mono (keeps σ memory)) member status lawful
        answers gives'
    rintro r' rfl
    cases r' with
    | error payload =>
      -- A member's procedure does not panic where a history of its plan goes on.
      cases lawful.yields sound answers
    | ok answer =>
      exact (finishReplayed_member sound allowed ok clear member status lawful answers).imp
        fun d leads => leads.proceeds fun _ _ _ => rfl

theorem Inv.follows {c d : Config K} (sound : M.Sound) (inv : F.Inv seen c) (admits : F.Admits c)
    (follows : Config.Follows β c d) : F.Proceeds seen c d := by
  cases follows with
  | step h => exact inv.step sound admits d h
  | next σ result memory ambient code =>
    cases inv with
    | quiet ok clear =>
      exact Leads.proceeds (code_leads (.begun σ result memory ambient code) ok clear admits.permits)
        fun _ _ _ => rfl

theorem Member.grows {σ' : State K} {i : InstanceId} {x : Instance K} (member : F.Member σ i x)
    (grows : σ.Grows σ') : ∃ x', F.Member σ' i x' := by
  obtain ⟨x', found, later⟩ := grows i x member.1
  exact ⟨x', found, later.memo.trans member.2⟩

theorem Inv.run {c d : Config K} {t : List (Config K × Config K)} (sound : M.Sound)
    (inv : F.Inv seen c) (run : Config.Run β F.Admits c t d) :
    ∃ seen', F.Inv seen' d ∧ (F.replays = false → ∀ i x, F.Member c.state i x →
      seen' i = seen i ++ Config.eventsOf i t) := by
  induction run with
  | refl => exact ⟨seen, inv, fun _ i x _ => by simp⟩
  | @snoc t d e run guard follows ih =>
    obtain ⟨seen', inv', told⟩ := ih
    obtain ⟨seen'', inv'', told'⟩ := inv'.follows sound guard follows
    refine ⟨seen'', inv'', fun alone i x member => ?_⟩
    obtain ⟨x', member'⟩ := member.grows run.grows
    rw [told' alone i x' member', told alone i x member, Config.eventsOf_snoc, List.append_assoc]

end Family

end Resumable
