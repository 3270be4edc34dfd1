import Resumable.Proofs.Firing
import Resumable.Proofs.Sketch
import Mathlib.Data.List.Induction

namespace Resumable

variable {K : Client} {β : Behaviour K} {σ₀ σ : State K} {i : InstanceId}
  {x : Instance K}

theorem History.latestView?_eq_some {A : Type} {h : History A} {a : A}
    (shown : h.latestView? = some a) :
    ∃ n : Nat, h[n]? = some (Entry.view a) ∧
      ∀ (m : Nat) b, n < m → h[m]? ≠ some (Entry.view b) := by
  induction h using List.reverseRecOn with
  | nil => cases shown
  | append_singleton h e ih =>
    have last : (h ++ [e])[h.length]? = some e := List.getElem?_concat_length
    have beyond : ∀ m, h.length < m → (h ++ [e])[m]? = none := fun m lt =>
      List.getElem?_eq_none (by rw [List.length_append]; exact lt)
    rw [latestView?_push] at shown
    cases seen : e.view? with
    | some b =>
      rw [seen, Option.some_or] at shown
      cases shown
      have is : e = .view a := by
        cases e with
        | view c => cases seen; rfl
        | yielded v => cases seen
        | state v => cases seen
      refine ⟨h.length, is ▸ last, fun m c lt => ?_⟩
      simp [beyond m lt]
    | none =>
      rw [seen, Option.none_or] at shown
      obtain ⟨n, found, later⟩ := ih shown
      have within := (List.getElem?_eq_some_iff.mp found).1
      refine ⟨n, by rw [List.getElem?_append_left within, found], fun m b lt => ?_⟩
      rcases Nat.lt_trichotomy m h.length with inside | rfl | outside
      · rw [List.getElem?_append_left inside]
        exact later m b lt
      · rw [last]
        rintro ⟨⟩
        cases seen
      · simp [beyond m outside]

namespace Host

variable {H : Host β}

/-- What happens next leads to the component's instance being replaced. It is dismissed, and the
factory builds a procedure for a history; when the procedure takes the history over, the component
has another instance, with this history. -/
def Replaces (H : Host β) (σ : State K) (i : InstanceId) (h : History K.Artifact)
    (c : Config K) : Prop :=
  ∃ y inputs, σ.components[H.component]? = some y ∧ y.inputs = some inputs ∧
    ∃ rest : Stack K .unit,
      Config.Reaches β c ⟨.procedure, σ.dismiss H.component i, .call (.build H.factory inputs),
        .push (.forking H.component h) rest⟩ ∧
      ∀ p, (β.code (.build H.factory inputs)).Gives (.ok p) →
        β.TakesOver σ.instances.length [] p none h →
        ∃ d z, Config.Reaches β c d ∧
          d.state.current H.component = some σ.instances.length ∧
          d.state.instances[σ.instances.length]? = some z ∧ z.history = h ∧ z.status = .paused

theorem Replaces.head {c d : Config K} {h : History K.Artifact} (replaces : H.Replaces σ i h d)
    (step : c.step β = .ok d) : H.Replaces σ i h c := by
  obtain ⟨y, inputs, made, given, rest, reached, taken⟩ := replaces
  refine ⟨y, inputs, made, given, rest, .head step reached, fun p built takes => ?_⟩
  obtain ⟨e, z, reached', replaced⟩ := taken p built takes
  exact ⟨e, z, .head step reached', replaced⟩

theorem StateOk.replaces {a : Nat} {stack : Stack K .unit} {h : History K.Artifact}
    (ok : H.StateOk a [] σ) (current : σ.current H.component = some i)
    (found : σ.instances[i]? = some x) (hears : x.Hears H.component)
    (held : .ofComponent H.component ∈ σ.held) (nonempty : h ≠ [])
    (unlocked : stack.locksComponent H.component = false)
    (idle : ∀ j, stack.locksInstance j = false) :
    H.Replaces σ i h ⟨.unit, σ, .emit (.ofInstance i) (.forked h), stack⟩ := by
  obtain ⟨y, made, settled⟩ := ok.settled
  have has : y.current = some i := by rwa [State.current_eq made] at current
  obtain ⟨inputs, given⟩ := Option.ne_none_iff_exists'.mp
    (settled.given (.inl fun none => by simp [has] at none))
  obtain ⟨rest, entries, -⟩ := (ok.orderly i x found).hears hears
  have told : x.registry.observers = .host H.component :: rest.map (·.2) := by
    simp [Registry.observers, entries]
  have forked := Config.step_forked (β := β) (h := h) found told held unlocked made has given
  rw [idle i, if_neg Bool.false_ne_true, settled.factory] at forked
  refine ⟨y, inputs, made, given, _, .single forked, fun p built takes => ?_⟩
  have length : (σ.dismiss H.component i).instances.length = σ.instances.length :=
    State.length_modifyInstance σ i _
  have unlocked' : (Stack.push (.emitting (.ofInstance i) (rest.map (·.2)) (.forked h)) stack :
      Stack K .unit).locksInstance (σ.dismiss H.component i).instances.length = false := by
    simpa [Stack.locksInstance, Stack.any, Frame.lockedInstance?] using idle _
  obtain ⟨d, z, reached, placed, born, history, status, -⟩ := Config.forking_reaches (β := β)
    (State.components_dismiss_self made) unlocked' built (length.symm ▸ takes) nonempty
  rw [length] at placed born
  exact ⟨d, z, .head forked reached, placed, born, history, status⟩

/-- What a component shows carries setters of its instance if the instance has shown it by itself,
and firing one replaces the instance by one that carries on from before the slot. If the instance
has taken it over, the setters that it carries are those of instances that are gone, and firing one
changes nothing. -/
theorem shown_setters (vacant : H.Vacant σ₀) {code : Code K Unit}
    {t : List (Config K × Config K)} {result : Except Payload Unit}
    (run : Config.Run β H.Admits (.start σ₀ code) t ⟨.unit, σ, .run (.ended result), .empty⟩)
    (held : .ofComponent H.component ∈ σ.held) (current : σ.current H.component = some i)
    (found : σ.instances[i]? = some x) (live : x.registry.closed = false) {artifact : K.Artifact}
    (shown : x.history.latestView? = some artifact) :
    ∃ n : Nat, x.history[n]? = some (.view artifact) ∧
      (∀ (m : Nat) b, n < m → x.history[m]? ≠ some (.view b)) ∧
      ∀ setter, H.carried artifact setter → ∀ memory ambient v next,
        (H.arrival t ≤ n ∧ setter.owner = i ∧
          (∃ w, x.history[setter.position]? = some (.state w)) ∧
          H.Replaces { σ with memory := memory, ambient := ambient } i
            (x.history.take setter.position ++ [.state v])
            (.start { σ with memory := memory, ambient := ambient } (.call (.fire setter v) next))) ∨
        (n < H.arrival t ∧ setter.owner ≠ i ∧
          Config.Reaches β
            (.start { σ with memory := memory, ambient := ambient } (.call (.fire setter v) next))
            (.start { σ with memory := memory, ambient := ambient } (next ()))) := by
  have inv := (vacant.start code).run run
  have ok : H.StateOk (H.arrival t) [] σ := inv.state
  obtain ⟨n, placed, last⟩ := History.latestView?_eq_some shown
  obtain ⟨y, made, settled⟩ := ok.settled
  have hears : x.Hears H.component := by
    rw [State.current_eq made] at current
    obtain ⟨x', found', hears | ⟨-, closed⟩⟩ := settled.tells i (.inl current)
    · cases found.symm.trans found'
      exact hears
    · cases found.symm.trans found'
      rw [live] at closed
      cases closed
  have tenant := ok.tenant i x found hears
  refine ⟨n, placed, last, fun setter carried memory ambient v next => ?_⟩
  have ok' : H.StateOk (H.arrival t) [] { σ with memory := memory, ambient := ambient } :=
    ok.of_same rfl rfl rfl rfl
  by_cases own : H.arrival t ≤ n
  · left
    obtain ⟨owner, x', w, found', begins⟩ :=
      tenant.own n artifact setter placed carried List.not_mem_nil own
    cases found.symm.trans found'
    have cut : x.history.take setter.position = setter.before := by
      obtain ⟨later, eq⟩ := begins
      rw [← eq, List.append_assoc, Setter.position, List.take_left]
    have slot : x.history[setter.position]? = some (.state w) := by
      obtain ⟨later, eq⟩ := begins
      rw [← eq, Setter.position, List.append_assoc, List.getElem?_append_right (Nat.le_refl _)]
      simp
    refine ⟨own, owner, ⟨w, slot⟩, ?_⟩
    have alive : ({ σ with memory := memory, ambient := ambient } : State K).instanceAlive
        (.push (.waiting next) .empty) setter.owner = true := by
      rw [owner]
      exact State.instanceAlive_of_current held made (by rwa [State.current_eq made] at current)
    rw [cut]
    have fired := Config.step_fire (β := β) .empty v next alive
    rw [owner] at fired
    exact (ok'.replaces current found hears held (by simp) rfl fun _ => rfl).head fired
  · right
    obtain ⟨z, gone, closed⟩ := tenant.adopted n artifact setter placed carried
      (.inr (Nat.lt_of_not_le own))
    refine ⟨Nat.lt_of_not_le own, ?_, Config.reaches_of_fire_deaf .empty v next ?_⟩
    · rintro rfl
      cases found.symm.trans gone
      rw [live] at closed
      cases closed
    · simp [State.registry, gone, Registry.observers, (ok.orderly _ z gone).shut closed]

end Host

namespace Sketch

theorem Drawing.setters_fed {p : Drawing} {input : Option (Resumption Picture)}
    {setter : Setter Picture} (mem : setter ∈ (p.fed input).setters) :
    setter ∈ p.setters ∨ ∃ v, input = some (.cell ⟨v, setter⟩) := by
  cases input with
  | none => exact .inl mem
  | some input =>
    cases input with
    | value v => exact .inl mem
    | cell cell =>
      rcases List.mem_cons.mp mem with rfl | old
      · exact .inr ⟨cell.value, rfl⟩
      · exact .inl old

theorem Drawing.setters_shown {p q : Drawing} {input : Option (Resumption Picture)}
    {answer : Except Fault (Client.Yielded client)} (h : p.resume input = (q, answer)) :
    q.setters = (p.fed input).setters ∧
      ∀ picture, Client.shown? answer = some picture →
        picture.setters = (p.fed input).setters := by
  simp only [Drawing.resume] at h
  split at h
  · cases h
    exact ⟨rfl, by rintro picture ⟨⟩⟩
  · next move moves _ =>
    cases h
    refine ⟨rfl, fun picture shown => ?_⟩
    cases move with
    | «show» => cases shown; rfl
    | finish => cases shown; rfl
    | _ => cases shown

def host (c : ComponentId) (factory : Value → Drawing)
    (plain : ∀ inputs, (factory inputs).setters = []) : Host behaviour where
  component := c
  factory := factory
  expected _ := True
  built p := p.setters = []
  carried picture setter := setter ∈ picture.setters
  kept p setter := setter ∈ p.setters
  strict := false
  empty p setter built kept := by
    rw [built] at kept
    cases kept
  build inputs _ p eq := by
    cases eq
    exact plain inputs
  silent strict := by cases strict
  resume p input q answer eq setter passes := by
    obtain ⟨kept, shown⟩ := Drawing.setters_shown (Except.ok.inj eq)
    apply Drawing.setters_fed
    rcases passes with old | ⟨picture, shows', carried⟩
    · exact kept ▸ old
    · exact shown picture shows' ▸ carried

def behaves (c : Config client) : Bool :=
  match c with
  | ⟨_, _, .run (.call request _), _⟩ =>
    match request with
    | .unsubscribe _ _ => false
    | .replay _ _ => false
    | .fire _ _ => false
    | _ => true
  | ⟨_, _, .run (.panic _), _⟩ => false
  | _ => true

theorem behaves_admits {c : ComponentId} {factory : Value → Drawing}
    {plain : ∀ inputs, (factory inputs).setters = []} (d : Config client)
    (h : behaves d = true) : (host c factory plain).Admits d := by
  obtain ⟨s, σ, control, stack⟩ := d
  cases control with
  | run code =>
    cases code with
    | call request next =>
      cases request with
      | unsubscribe => cases h
      | replay => cases h
      | fire => cases h
      | terminate => rintro ⟨⟩
      | render => exact fun _ => trivial
      | _ => trivial
    | panic => cases h
    | _ => trivial
  | _ => trivial

def drawnState (moves : List Move) : State client where
  memory := ()
  memos := [[]]
  components := [
    { factory := fun _ => { moves := moves }, callback := (), settings := {}, memo := 0 }]
  held := [.ofComponent 0]

theorem drawn_vacant (moves : List Move) {H : Host behaviour} (component : H.component = 0)
    (factory : H.factory = fun _ => { moves := moves }) : H.Vacant (drawnState moves) where
  orderly i x found := by cases found
  clients r mem := by cases mem
  made c y found := by
    cases c with
    | zero => cases found; exact Nat.zero_lt_one
    | succ c => cases found
  present c y i found has := by
    cases c with
    | zero => cases found; cases has
    | succ c => cases found
  settled := by
    rw [component, factory]
    refine ⟨_, rfl, rfl, by rintro inputs ⟨⟩, rfl, fun c y found _ => ?_⟩
    cases c with
    | zero => rfl
    | succ c => cases found
  deaf i x found := by cases found

def form : List Move :=
  [.hold (.int 1), .show, .hold (.int 2), .finish]

def formHost : Host behaviour :=
  host 0 (fun _ => { moves := form }) fun _ => rfl

def formState : State client where
  memory := ()
  memos := [[]]
  components := [
    { factory := fun _ => { moves := form }, callback := (), settings := {}, memo := 0 }]
  held := [.ofComponent 0]

theorem form_vacant : formHost.Vacant formState :=
  drawn_vacant form rfl rfl

def renderCode : Code client Unit :=
  .call (.render 0 (.int 1)) fun _ => .done ()

def refillCode : Code client Unit :=
  .call (.render 0 (.int 1)) fun _ =>
    .call (.instanceView 0) fun view =>
      .call (.fire ⟨0, view.history.take 2⟩ (.int 9)) fun _ => .done ()

def rendered : Config client :=
  Config.after behaviour 32 (.start formState renderCode)

def refilling : Config client :=
  Config.after behaviour 34 (.start formState refillCode)

def refilled : Config client :=
  Config.after behaviour 15 (Config.after behaviour 1 refilling)

theorem refilling_admits : formHost.Admits refilling := by
  change ∀ x, refilling.state.instances[0]? = some x → x.Hears 0 →
    ∃ v, (refilling.state.instances[0]?.elim [] (·.history.take 2)) ++ [.state v] <+: x.history
  intro x found _
  obtain rfl : refilling.state.instances.get ⟨0, by decide +kernel⟩ = x :=
    Option.some.inj (Eq.trans rfl found)
  exact ⟨.int 2, _, rfl⟩

theorem restored (σ : State client) : { σ with memory := (), ambient := σ.ambient } = σ :=
  rfl

/-- The setter of the second slot is live when the picture behind it has been shown; when it has
been fired, the setter in the picture before it is dead. -/
theorem form_shown_setters :
    (∃ x picture setter, rendered.state.instances[0]? = some x ∧
      x.history.latestView? = some picture ∧ setter ∈ picture.setters ∧
      formHost.Replaces rendered.state 0 (x.history.take setter.position ++ [.state (.int 9)])
        (.start rendered.state (.call (.fire setter (.int 9)) fun _ => .done ()))) ∧
    (∃ x picture setter, refilled.state.instances[1]? = some x ∧
      x.history.latestView? = some picture ∧ setter ∈ picture.setters ∧ setter.owner ≠ 1 ∧
      Config.Reaches behaviour
        (.start refilled.state (.call (.fire setter (.int 9)) fun _ => .done ()))
        (.start refilled.state (.done ()))) := by
  have ended : ∀ {G : Config client → Prop} {c : Config client} {t : List (Config client × Config client)}
      {d : Config client}, Config.Run behaviour G c t d →
      d = ⟨.unit, d.state, .run (Code.ended (.ok ())), .empty⟩ →
      Config.Run behaviour G c t ⟨.unit, d.state, .run (Code.ended (.ok ())), .empty⟩ :=
    fun run eq => eq ▸ run
  constructor
  · have run : Config.Run behaviour formHost.Admits (.start formState renderCode)
        (Config.trail behaviour 32 (.start formState renderCode)) rendered :=
      .walk behaves_admits _ _ (by decide +kernel)
    obtain ⟨x, found, live, picture, shown, setter, carried, owner⟩ :
        ∃ x, rendered.state.instances[0]? = some x ∧ x.registry.closed = false ∧
          ∃ picture, x.history.latestView? = some picture ∧
            ∃ setter ∈ picture.setters, setter.owner = 0 :=
      ⟨_, rfl, rfl, _, rfl, _, List.Mem.head _, rfl⟩
    obtain ⟨n, -, -, setters⟩ := Host.shown_setters form_vacant (ended run rfl) (.head _) rfl found
      live shown
    refine ⟨x, picture, setter, found, shown, carried, ?_⟩
    rcases setters setter carried () rendered.state.ambient (.int 9) fun _ => .done () with
      ⟨-, -, -, replaces⟩ | ⟨-, other, -⟩
    · rw [restored rendered.state] at replaces
      exact replaces
    · exact absurd owner other
  · have first : Config.Run behaviour formHost.Admits (.start formState refillCode)
        (Config.trail behaviour 34 (.start formState refillCode)) refilling :=
      .walk behaves_admits _ _ (by decide +kernel)
    have fired := first.snoc refilling_admits (.step (d := Config.after behaviour 1 refilling) rfl)
    have run : Config.Run behaviour formHost.Admits (.start formState refillCode) _ refilled :=
      fired.append (.walk behaves_admits 15 _ (by decide +kernel))
    obtain ⟨x, found, live, picture, shown, setter, carried, owner⟩ :
        ∃ x, refilled.state.instances[1]? = some x ∧ x.registry.closed = false ∧
          ∃ picture, x.history.latestView? = some picture ∧
            ∃ setter ∈ picture.setters, setter.owner = 0 :=
      ⟨_, rfl, rfl, _, rfl, _, List.Mem.head _, rfl⟩
    obtain ⟨n, -, -, setters⟩ := Host.shown_setters form_vacant (ended run rfl) (.head _) rfl found
      live shown
    refine ⟨x, picture, setter, found, shown, carried, ?_⟩
    rcases setters setter carried () refilled.state.ambient (.int 9) fun _ => .done () with
      ⟨-, same, -⟩ | ⟨-, other, dead⟩
    · rw [owner] at same
      cases same
    · rw [restored refilled.state] at dead
      exact ⟨other, dead⟩

end Sketch

end Resumable
