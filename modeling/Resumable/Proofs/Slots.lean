import Resumable.Proofs.FamilyRun

namespace Resumable

variable {K : Client} {β : Behaviour K}

abbrev Slots := Position → Option Value

namespace Slots

def empty : Slots :=
  fun _ => none

def fill (slots : Slots) (n : Position) (v : Value) : Slots :=
  fun m => if m < n then slots m else if m = n then some v else none

variable {slots : Slots} {n m : Nat} {v : Value}

theorem fill_of_lt (before : m < n) : slots.fill n v m = slots m :=
  if_pos before

theorem fill_self : slots.fill n v n = some v := by
  simp [fill]

theorem fill_of_gt (after : n < m) : slots.fill n v m = none := by
  rw [fill, if_neg (Nat.not_lt_of_lt after), if_neg (Nat.ne_of_gt after)]

def fired (firings : List (Position × Value)) : Slots :=
  firings.foldl (fun slots firing => slots.fill firing.1 firing.2) empty

@[simp]
theorem fired_snoc (firings : List (Position × Value)) (n : Position) (v : Value) :
    fired (firings ++ [(n, v)]) = (fired firings).fill n v := by
  simp [fired]

end Slots

theorem Setter.slot_of_prefix {A : Type} (setter : Setter A) {h : History A} {w : Value}
    (slot : setter.before ++ [.state w] <+: h) :
    h[setter.position]? = some (.state w) ∧ h.take setter.position = setter.before := by
  obtain ⟨later, rfl⟩ := slot
  simp [Setter.position, List.append_assoc]

/-- How many entries the setter fired last has left as they are, its slot included. -/
def keptBy (firings : List (Position × Value)) : Nat :=
  firings.getLast?.elim 0 (·.1 + 1)

@[simp]
theorem keptBy_snoc (firings : List (Position × Value)) (n : Position) (v : Value) :
    keptBy (firings ++ [(n, v)]) = n + 1 := by
  simp [keptBy]

abbrev Plan.slotted (p : K.Procedure) (settings : Settings) (slots : Slots) : Plan K where
  start := p
  settings := settings
  slots := slots

theorem Plan.agree_fill (p : K.Procedure) (settings : Settings) (slots : Slots) (n : Position)
    (v : Value) : (slotted p settings slots).Agree (slotted p settings (slots.fill n v)) n :=
  ⟨rfl, rfl, rfl, fun _ before => (Slots.fill_of_lt before).symm⟩

theorem Plan.untouched_fired (p : K.Procedure) (settings : Settings)
    (firings : List (Position × Value)) :
    (slotted p settings (Slots.fired firings)).Untouched (keptBy firings) := by
  rcases List.eq_nil_or_concat' firings with rfl | ⟨before, ⟨n, v⟩, rfl⟩
  · exact fun _ _ => rfl
  · intro m beyond
    rw [keptBy_snoc] at beyond
    rw [Slots.fired_snoc]
    exact Slots.fill_of_gt beyond

namespace Meaning

variable {M : Meaning β} {p : K.Procedure} {settings : Settings} {slots : Slots} {i : InstanceId}
  {h : History K.Artifact}

def Coherent (M : Meaning β) (p : K.Procedure) (settings : Settings) : Prop :=
  ∀ slots slots' i j h k e e' q q', M.Asks (.slotted p settings slots) i h e q →
    M.Asks (.slotted p settings slots') j k e' q' → h.length = k.length →
    ∀ keys keys', e.keys? = some keys → e'.keys? = some keys' →
    Value.sameKeys keys keys' = true → M.upshot e = M.upshot e'

/-- What a setter hands on is a history of the plan with the slot filled. -/
theorem Recorded.fill [Nonempty K.Memory] (sound : M.Sound) (deterministic : M.procedures p p)
    (recorded : M.Recorded (.slotted p settings slots) i h) {n : Nat} {v w : Value}
    (slot : h[n]? = some (.state w)) :
    M.Recorded (.slotted p settings (slots.fill n v)) i (h.take n ++ [.state v]) := by
  obtain ⟨lt, at_n⟩ := List.getElem?_eq_some_iff.mp slot
  have length : (h.take n).length = n := List.length_take_of_le (Nat.le_of_lt lt)
  obtain ⟨r, answers, yields⟩ := recorded.answered lt
  rw [at_n] at yields
  have agree : (Plan.slotted p settings slots).Agree (.slotted p settings (slots.fill n v))
      (h.take n).length := by
    rw [length]
    exact Plan.agree_fill p settings slots n v
  obtain ⟨r', answers', results⟩ :=
    answers.transfer sound deterministic i agree (HistoryAlike.refl _)
  refine .push answers' ?_
  rw [length]
  cases yields with
  | effect records =>
    cases records with
    | hold initial =>
      cases results with
      | yielded _ effects =>
        cases effects with
        | hold =>
          have held := Records.hold (M := M) (π := .slotted p settings (slots.fill n v)) (n := n)
            initial
          have filled : (Plan.slotted p settings (slots.fill n v)).slots n = some v :=
            Slots.fill_self
          rw [filled] at held
          exact .effect held

theorem Recorded.filled {π : Plan K} (recorded : M.Recorded π i h) {n : Nat} {v w : Value}
    (slot : h[n]? = some (.state w)) (filled : π.slots n = some v) : w = v := by
  obtain ⟨lt, at_n⟩ := List.getElem?_eq_some_iff.mp slot
  obtain ⟨r, -, yields⟩ := recorded.answered lt
  rw [at_n] at yields
  generalize held : Entry.state w = e at yields
  cases yields with
  | complete => cases held
  | effect records =>
    cases records with
    | render => cases held
    | supplied => cases held
    | hold initial =>
      rw [filled] at held
      exact Entry.state.inj held

theorem Recorded.agree [Nonempty K.Memory] (sound : M.Sound) {π : Plan K}
    (deterministic : M.procedures π.start π.start) {j : InstanceId} {k : History K.Artifact}
    (recorded : M.Recorded π i h) (recorded' : M.Recorded π j k) :
    M.HistoryAlike (h.take k.length) (k.take h.length) :=
  (recorded.take k.length).alike sound deterministic (recorded'.take h.length)
    (by simp [Nat.min_comm]) (Plan.Agree.refl π _)

end Meaning

namespace Family

variable {M : Meaning β} {p : K.Procedure} {settings : Settings}
  {deterministic : M.procedures p p} {coherent : M.Coherent p settings}

def slotted (memo : MemoId) (p : K.Procedure) (settings : Settings)
    (deterministic : M.procedures p p) (coherent : M.Coherent p settings)
    (slots : InstanceId → Slots) : Family M where
  memo := memo
  programs := { π | ∃ slots, Plan.slotted p settings slots = π }
  plan i := .slotted p settings (slots i)
  attended := false
  replays := true
  listed i := ⟨slots i, rfl⟩
  stores := by rintro _ ⟨slots, rfl⟩; rfl
  deterministic := by rintro _ ⟨slots, rfl⟩; exact deterministic
  coherent := by
    rintro _ ⟨slots, rfl⟩ _ ⟨slots', rfl⟩
    exact coherent slots slots'

variable {memo : MemoId} {slots slots' : InstanceId → Slots} {i : InstanceId} {x : Instance K}
  {σ : State K}

theorem Standing.assign {replayed : Option InstanceId} {seen : List Event}
    (standing : (slotted memo p settings deterministic coherent slots).Standing replayed i seen x)
    (same : slots' i = slots i) :
    (slotted memo p settings deterministic coherent slots').Standing replayed i seen x := by
  have plan : (slotted memo p settings deterministic coherent slots').plan i =
      (slotted memo p settings deterministic coherent slots).plan i :=
    congrArg (Plan.slotted p settings) same
  cases standing with
  | paused status procedure course untouched seen =>
    exact .paused status procedure (plan ▸ course) (plan ▸ untouched) seen
  | running status course untouched seen =>
    exact .running status (plan ▸ course) (plan ▸ untouched) seen
  | ended status ends => exact .ended status (plan ▸ ends)
  | stopped status closed recorded => exact .stopped status closed (plan ▸ recorded)
  | fed status chosen course seen => exact .fed status chosen (plan ▸ course) seen

theorem StateOk.assign {replayed : Option InstanceId} {seen : InstanceId → List Event}
    (ok : (slotted memo p settings deterministic coherent slots).StateOk seen replayed σ)
    (same : ∀ i < σ.instances.length, slots' i = slots i) :
    (slotted memo p settings deterministic coherent slots').StateOk seen replayed σ where
  memo := ok.memo
  settings := ok.settings
  standing i x member :=
    (ok.standing i x member).assign (same i (List.getElem?_eq_some_iff.mp member.1).1)
  tasks task mem := by
    cases ok.tasks task mem with
    | foreign owner => exact .foreign owner
    | own owner settled awaits =>
      have plan : (slotted memo p settings deterministic coherent slots').plan task.owner =
          (slotted memo p settings deterministic coherent slots).plan task.owner :=
        congrArg (Plan.slotted p settings)
          (same task.owner (List.getElem?_eq_some_iff.mp owner.1).1)
      refine .own owner settled ?_
      cases awaits with
      | gone status => exact .gone status
      | past lt => exact .past lt
      | waits status procedure position asks produced missed =>
        exact .waits status procedure position (plan ▸ asks) produced missed

theorem Inv.assign {seen : InstanceId → List Event} {c : Config K}
    (inv : (slotted memo p settings deterministic coherent slots).Inv seen c)
    (same : ∀ i < c.state.instances.length, slots' i = slots i) :
    (slotted memo p settings deterministic coherent slots').Inv seen c := by
  have plan : ∀ i x, (slotted memo p settings deterministic coherent slots).Member c.state i x →
      (slotted memo p settings deterministic coherent slots').plan i =
        (slotted memo p settings deterministic coherent slots).plan i := fun i x member =>
    congrArg (Plan.slotted p settings) (same i (List.getElem?_eq_some_iff.mp member.1).1)
  cases inv with
  | quiet ok clear => exact .quiet (ok.assign same) clear
  | @stepping _ _ _ i x r ok clear member status lent answers gives =>
    exact .stepping (ok.assign same) clear member status lent (plan i x member ▸ answers) gives
  | @computing _ _ _ i x _ _ _ _ ok clear member status procedure asks computed missed gives =>
    exact .computing (ok.assign same) clear member status procedure (plan i x member ▸ asks)
      computed missed gives
  | @launching _ _ _ i x _ _ _ _ ok clear member status procedure asks produced missed gives =>
    exact .launching (ok.assign same) clear member status procedure (plan i x member ▸ asks)
      produced missed gives
  | @polling _ _ _ x task _ ok clear member awaits gives =>
    refine .polling (ok.assign same) clear member ?_ gives
    cases awaits with
    | gone status => exact .gone status
    | past lt => exact .past lt
    | waits status procedure position asks produced missed =>
      exact .waits status procedure position (plan _ x member ▸ asks) produced missed
  | @replaying _ _ _ i x _ _ _ allowed ok clear member status lawful answers gives =>
    exact .replaying allowed (ok.assign same) clear member status
      ⟨plan i x member ▸ lawful.1, plan i x member ▸ lawful.2⟩ (plan i x member ▸ answers) gives

end Family

end Resumable
