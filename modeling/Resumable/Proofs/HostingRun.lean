import Resumable.Proofs.HostingLeads

namespace Resumable

variable {K : Client} {β : Behaviour K} {s w : Shape} {σ σ' : State K} {a : Nat}

namespace Host

variable {H : Host β} {c d : Config K}

theorem Vacant.idle {stack : Stack K .unit} (vacant : H.Vacant σ) (fits : H.StackOk σ stack)
    (free : H.Open stack) (alone : stack.locks H.component = []) :
    H.Inv a ⟨.unit, σ, .run (.done ()), stack⟩ := by
  have there : H.At a [] σ σ stack :=
    ⟨vacant.stateOk a [] (Nat.zero_le 1) nofun nofun, fits, free, rfl, alone⟩
  exact (there.answer trivial).inv

section

variable {next : Shape.unit.Answer K → Code K (s.Answer K)} {stack : Stack K s} {k : ComponentId}
  {y : Component K}

theorem reset_leads (inv : H.Inv a ⟨s, σ, .run (.call (.reset k) next), stack⟩)
    (unlocked : (Stack.push (.waiting next) stack).locksComponent k = false)
    (made : σ.components[k]? = some y)
    (dismisses : σ.Dismisses (.push (.waiting next) stack) k y σ') :
    H.Leads a ⟨s, σ, .run (.call (.reset k) next), stack⟩
      ⟨.unit, σ'.newMemo.2.modifyComponent k ({ · with inputs := none, memo := σ'.newMemo.1 }),
        .run (.done ()), .push (.waiting next) stack⟩ := by
  have at' := (inv.upon id).push (f := .waiting next) inv.control rfl
  by_cases same : k = H.component
  · subst same
    have alone := Stack.locks_eq_nil_iff.mpr unlocked
    have vacant := at'.ok.vacates (by simp [← at'.locked, alone]) made dismisses
    have fits := at'.fits.grows dismisses.changes.grows
    exact .inr ⟨rfl, vacant.reset.idle (fits.grows (.of_instances rfl)) at'.free alone⟩
  · have kept := at'.dismisses same made dismisses
    have more : H.At a _ σ σ'.newMemo.2 (.push (.waiting next) stack) :=
      kept.change (kept.ok.of_objects rfl rfl kept.ok.clients (by simp [State.newMemo]))
        (.of_instances rfl) rfl
    refine .inl (At.answer ?_ trivial)
    refine more.modifyOther same (fun y z _ mine => .inr ⟨?_, ?_⟩) fun _ _ _ has => .inl has
    · simp [State.newMemo]
    · exact Ne.symm (Nat.ne_of_lt (kept.ok.made H.component z mine))

theorem unmount_leads (inv : H.Inv a ⟨s, σ, .run (.call (.unmount k) next), stack⟩)
    (unlocked : (Stack.push (.waiting next) stack).locksComponent k = false)
    (made : σ.components[k]? = some y)
    (dismisses : σ.Dismisses (.push (.waiting next) stack) k y σ') :
    H.Leads a ⟨s, σ, .run (.call (.unmount k) next), stack⟩
      ⟨.unit, σ', .run (.done ()), .push (.waiting next) stack⟩ := by
  have at' := (inv.upon id).push (f := .waiting next) inv.control rfl
  by_cases same : k = H.component
  · subst same
    have alone := Stack.locks_eq_nil_iff.mpr unlocked
    have vacant := at'.ok.vacates (by simp [← at'.locked, alone]) made dismisses
    exact .inr ⟨rfl, vacant.idle (at'.fits.grows dismisses.changes.grows) at'.free alone⟩
  · exact .inl ((at'.dismisses same made dismisses).answer trivial)

end

theorem replied_leads {request : Request K w} {next : w.Answer K → Code K (s.Answer K)}
    {stack : Stack K s} {answer : w.Answer K}
    (replies : σ.Replies (.push (.waiting next) stack) request σ' answer)
    (inv : H.Inv a ⟨s, σ, .run (.call request next), stack⟩)
    (admits : H.Admits ⟨s, σ, .run (.call request next), stack⟩) :
    H.Leads a ⟨s, σ, .run (.call request next), stack⟩
      ⟨w, σ', .run (.done answer), .push (.waiting next) stack⟩ := by
  have at' := (inv.upon id).push (f := .waiting next) inv.control rfl
  have ok := at'.ok
  cases replies with
  | newMemo =>
    refine .inl (At.answer ?_ trivial)
    exact at'.change (ok.of_objects rfl rfl ok.clients (by simp [State.newMemo])) (.of_instances rfl)
      rfl
  | memo => exact .inl (at'.answer trivial)
  | remember => exact .inl ((at'.remember ..).answer trivial)
  | clearMemo =>
    refine .inl (At.answer ?_ trivial)
    exact at'.of_same rfl rfl rfl (by simp [State.clearMemo])
  | newRegistry =>
    exact .inl ((at'.change ok.newRegistry (.of_instances rfl) rfl).answer trivial)
  | registry => exact .inl (at'.answer trivial)
  | subscribe source o =>
    refine .inl (At.answer ?_ trivial)
    exact at'.change (ok.subscribe source o) (State.Change.subscribe σ source o).grows
      (by cases source <;> rfl)
  | unsubscribe source n =>
    refine .inl (At.answer (at'.change (ok.unsubscribe source n ?_)
      (State.Change.unsubscribe σ source n).grows (by cases source <;> rfl)) trivial)
    rintro i x rfl found hears
    exact admits x found hears
  | closeRegistry id =>
    exact .inl ((at'.change (ok.closeRegistry id) (.of_instances rfl) rfl).answer trivial)
  | newInstance p m settings =>
    refine .inl (At.answer ?_ trivial)
    exact at'.change (ok.newInstance p m settings (.inl rfl)) (.newInstance p m settings []) rfl
  | instanceView => exact .inl (at'.answer trivial)
  | instanceMemo => exact .inl (at'.answer trivial)
  | replay => exact .inl (at'.answer trivial)
  | terminate => exact .inl ((at'.change (ok.terminate admits) (.terminate _) rfl).answer trivial)
  | fire => exact .inl (at'.answer trivial)
  | newComponent factory callback settings =>
    refine .inl (At.answer (at'.change (ok.newComponent factory callback settings)
      (.of_instances rfl) ?_) trivial)
    obtain ⟨y, made, -⟩ := ok.settled
    exact congrArg _ (List.getElem?_append_left (List.getElem?_eq_some_iff.mp made).1)
  | componentView => exact .inl (at'.answer trivial)
  | reset unlocked made dismisses => exact reset_leads inv unlocked made dismisses
  | unmount unlocked made dismisses => exact unmount_leads inv unlocked made dismisses
  | takeFault =>
    refine .inl (At.answer ?_ trivial)
    exact at'.modifyComponent _ (fun _ => ⟨rfl, rfl, rfl, rfl⟩) fun _ => rfl
  | drain => exact .inl (at'.answer trivial)
  | openGate =>
    refine .inl (At.answer ?_ trivial)
    exact at'.of_same rfl rfl rfl rfl
  | retain =>
    refine .inl (At.answer ?_ trivial)
    exact at'.of_same rfl rfl rfl rfl
  | release =>
    refine .inl (At.answer ?_ trivial)
    exact at'.of_same rfl rfl rfl rfl

theorem allowed_panic {stack : Stack K s} (payload : Payload) : H.Allowed σ stack (.error payload) := by
  cases stack with
  | empty => trivial
  | push frame rest => cases frame <;> first | trivial | simp [Allowed, Takes]

theorem Topmost.goes {control control' : Control K s} {stack : Stack K s}
    (top : H.Topmost control stack) (goes : ∀ answer, control ≠ .run (.done answer))
    (only : ∀ Q, control.Only β Q → control'.Only β Q) : H.Topmost control' stack := by
  rcases top with free | ⟨answer, done⟩ | ⟨strict, silent⟩
  · exact .inl free
  · exact absurd done (goes answer)
  · exact .inr (.inr ⟨strict, only _ silent⟩)

theorem dropped_stays {frame : Frame K s w} {rest : Stack K w} {payload : Payload}
    (inv : H.Inv a ⟨s, σ, .run (.panic payload), .push frame rest⟩)
    (alone : (Stack.push frame rest).locks H.component = []) :
    H.Stays a ((Stack.push frame rest).locks H.component) σ
      ⟨w, σ, .run (.panic payload), rest⟩ := by
  obtain ⟨idle, below⟩ := List.append_eq_nil_iff.mp alone
  have free : H.Open rest := by
    rcases inv.stack.2.1 with free | ⟨i, -, locked⟩
    · exact free
    · cases rest with
      | empty => cases locked
      | push frame' rest' =>
        simp only [Stack.lock?] at locked
        simp [Stack.locks, locked] at below
  have at' : H.Upon a ⟨s, σ, .run (.panic payload), .push frame rest⟩ rest :=
    ⟨inv.state, inv.stack.2.2, free, rfl, below.trans alone.symm⟩
  exact at'.stays (allowed_panic payload)

theorem code_leads (step : Config.CodeStep β c d) (inv : H.Inv a c) (admits : H.Admits c) :
    H.Leads a c d := by
  cases step with
  | entered =>
    exact .inl ⟨⟨inv.state, inv.stack, inv.control, inv.top.goes nofun fun _ => id⟩, rfl, rfl⟩
  | read σ =>
    exact .inl ⟨⟨inv.state, inv.stack, inv.control σ.memory,
      inv.top.goes nofun fun _ only => only σ.memory⟩, rfl, rfl⟩
  | wrote σ memory =>
    have grows : σ.Grows { σ with memory := memory } := .of_instances rfl
    exact .inl ⟨⟨inv.state.of_same rfl rfl rfl rfl, inv.stack.grows grows,
      Code.Ends.imp inv.control fun r allowed => allowed.grows grows,
      inv.top.goes nofun fun _ => id⟩, rfl, rfl⟩
  | replied replies => exact replied_leads replies inv admits
  | called =>
    exact .inl ((inv.upon id).stays_push inv.control rfl (Code.Ends.of_forall (fun _ => trivial) _))
  | emitted => exact .inl ((inv.upon id).stays_push inv.control rfl trivial)
  | fired v =>
    refine .inl ((inv.upon id).stays_push inv.control rfl fun x found hears => ?_)
    obtain ⟨w, begins⟩ := admits x found hears
    exact ⟨_, v, w, rfl, begins⟩
  | driven => exact .inl ((inv.upon id).stays_push inv.control rfl trivial)
  | answered σ next answer => exact .inl ((inv.below rfl rfl).stays (inv.stack.1 answer))
  | dropped => exact .inl (dropped_stays inv admits)
  | begun =>
    exact .inl ⟨⟨inv.state.of_same rfl rfl rfl rfl, trivial,
      Code.Ends.of_forall (fun _ => trivial) _, .inl trivial⟩, rfl, rfl⟩

theorem Inv.leads (inv : H.Inv a c) (admits : H.Admits c) (transition : Config.Transition β c d) :
    H.Leads a c d := by
  cases transition with
  | code step => exact code_leads step inv admits
  | drive step => exact .inl (drive_stays step inv)
  | replay step => exact .inl (replay_stays step inv admits)
  | task step => exact .inl (task_stays step inv)
  | signal step => exact signal_leads step inv
  | host step => exact host_leads step inv admits

theorem Inv.follows (inv : H.Inv a c) (admits : H.Admits c)
    (follows : Config.Follows β c d) : H.Inv (H.arrives a c.state d.state) d :=
  (inv.leads admits follows.transition).inv

/-- How many entries the current instance had when it took its place, along a run. -/
def arrival (H : Host β) (t : List (Config K × Config K)) : Nat :=
  t.foldl (fun a p => H.arrives a p.1.state p.2.state) 0

@[simp]
theorem arrival_snoc (t : List (Config K × Config K)) (c d : Config K) :
    H.arrival (t ++ [(c, d)]) = H.arrives (H.arrival t) c.state d.state := by
  simp [arrival]

theorem Vacant.start {H : Host β} (vacant : H.Vacant σ) (code : Code K Unit) :
    H.Inv 0 (Config.start σ code) :=
  ⟨vacant.stateOk 0 [] (Nat.zero_le 1) (by simp) (by simp), trivial,
    Code.Ends.of_forall (fun _ => trivial) _, .inl trivial⟩

theorem Inv.run {c d : Config K} {t : List (Config K × Config K)} (start : H.Inv 0 c)
    (run : Config.Run β H.Admits c t d) : H.Inv (H.arrival t) d := by
  induction run with
  | refl => exact start
  | snoc run guard follows ih =>
    rw [arrival_snoc]
    exact ih.follows guard follows

end Host

end Resumable
