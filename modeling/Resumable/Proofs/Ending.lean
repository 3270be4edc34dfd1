import Resumable.Proofs.Course
import Resumable.Proofs.Events

namespace Resumable

namespace Meaning

variable {K : Client} {β : Behaviour K} (M : Meaning β)

inductive Last (π : Plan K) (n : Position) :
    Except Payload (K.Procedure × Except Fault K.Yielded) → Event → Prop
  | failed (q : K.Procedure) (fault : Fault) :
      Last π n (.ok (q, .error fault)) (.failed (fault.stamp n))
  | rejected {q : K.Procedure} {p : K.Producer} {keys : Option (List Value)} {failure : Failure}
      (supply : M.supply π.stored n (.await p keys) = some (.error failure)) :
      Last π n (.ok (q, .ok (.effect (.await p keys)))) (.rejected (.producer n failure))

/-- How an instance ends by itself, with all that was seen of it if none of its entries came from a
replay. Without a runtime around its operations it may also be stranded at a producer. -/
inductive Ends (π : Plan K) (attended : Bool) (i : InstanceId) :
    History K.Artifact → List Event → Prop
  | completed {h : History K.Artifact} {q : K.Procedure} {a b : K.Artifact}
      (answers : M.Answers π i h (.ok (q, .ok (.complete a)))) (alike : M.artifacts.r a b) :
      Ends π attended i (h ++ [.view b]) (paces h.length ++ [.start, .done])
  | stopped {h : History K.Artifact} {event : Event}
      {r : Except Payload (K.Procedure × Except Fault K.Yielded)} (answers : M.Answers π i h r)
      (last : M.Last π h.length r event) :
      Ends π attended i h (paces h.length ++ [.start, event])
  | exhausted {h : History K.Artifact} {p : K.Procedure} {limit : Nat}
      (course : M.Course π i h p) (limited : π.settings.limit = some limit)
      (reached : limit ≤ h.length) :
      Ends π attended i h (paces h.length ++ [.start, .failed (.historyLimit limit)])
  | stranded {h : History K.Artifact} {p : K.Producer} {keys : Option (List Value)}
      {q : K.Procedure} (asks : M.Asks π i h (.await p keys) q)
      (alone : π.settings.runtime = false) (unattended : attended = false) :
      Ends π attended i h (paces h.length ++ [.start, .failed (.noRuntime h.length)])

variable {M} {π π' : Plan K} {attended : Bool} {i j : InstanceId} {h k : History K.Artifact}
  {p q : K.Procedure} {es es' : List Event} {n : Position} {event event' : Event}
  {r r' : Except Payload (K.Procedure × Except Fault K.Yielded)}

theorem Last.unique (last : M.Last π n r event) (results : M.ResultAlike r r')
    (stored : π.stored = π'.stored) (last' : M.Last π' n r' event') : event = event' := by
  cases last with
  | failed =>
    cases results
    cases last'
    rfl
  | rejected supply =>
    cases results with
    | yielded _ effects =>
      rw [effects.supply_eq, stored] at supply
      cases last' with
      | rejected supply' =>
        rw [supply] at supply'
        cases supply'
        rfl

theorem Last.not_yields {e : Entry K.Artifact} (last : M.Last π n r event)
    (results : M.ResultAlike r r') (stored : π.stored = π'.stored)
    (yields : M.Yields π' n r' e) : False := by
  cases last with
  | failed =>
    cases results
    cases yields
  | rejected supply =>
    cases results with
    | yielded _ effects =>
      rw [effects.supply_eq, stored] at supply
      cases yields with
      | effect records =>
        cases records with
        | render => cases effects
        | hold => cases effects
        | supplied supply' => rw [supply] at supply'; cases supply'

theorem Ends.recorded (ends : M.Ends π attended i h es) : M.Recorded π i h := by
  cases ends with
  | completed answers alike => exact .push answers (.complete alike)
  | stopped answers =>
    obtain ⟨p, course, -, -⟩ := answers
    exact course.recorded
  | exhausted course => exact course.recorded
  | stranded asks =>
    obtain ⟨p, course, -, -⟩ := asks
    exact course.recorded

section

variable [Nonempty K.Memory]

theorem Answers.length_le (sound : M.Sound) (deterministic : M.procedures π.start π.start)
    (answers : M.Answers π i h r)
    (fruitless : ∀ r' e, M.ResultAlike r r' → ¬ M.Yields π h.length r' e)
    (recorded : M.Recorded π j k) : k.length ≤ h.length := by
  by_contra beyond
  obtain ⟨r', answers', yields⟩ := recorded.answered (Nat.lt_of_not_le beyond)
  have length : h.length = (k.take h.length).length := by
    rw [List.length_take_of_le (by omega)]
  obtain ⟨-, results⟩ :=
    answers.alike sound deterministic answers' length (Plan.Agree.refl π _)
  exact fruitless r' _ results yields

theorem Answers.course_le (sound : M.Sound) (deterministic : M.procedures π.start π.start)
    {a : K.Artifact} (answers : M.Answers π i h (.ok (q, .ok (.complete a))))
    (course : M.Course π j k p) : k.length ≤ h.length := by
  by_contra beyond
  obtain ⟨p', course'⟩ := course.take (h.length + 1)
  rw [List.take_succ_eq_append_getElem (by omega)] at course'
  obtain ⟨e, asks, -⟩ := course'.asked
  have length : h.length = (k.take h.length).length := by
    rw [List.length_take_of_le (by omega)]
  obtain ⟨-, results⟩ :=
    answers.alike sound deterministic asks length (Plan.Agree.refl π _)
  cases results

theorem Ends.length_le (sound : M.Sound) (deterministic : M.procedures π.start π.start)
    (ends : M.Ends π true i h es) (recorded : M.Recorded π j k) : k.length ≤ h.length := by
  cases ends with
  | completed answers alike =>
    cases recorded with
    | nil => exact Nat.zero_le _
    | push answers' yields =>
      obtain ⟨p, course, -, -⟩ := answers'
      simpa using answers.course_le sound deterministic course
  | stopped answers last =>
    exact answers.length_le sound deterministic
      (fun r' e results yields => last.not_yields results rfl yields) recorded
  | exhausted course limited reached =>
    by_contra beyond
    obtain ⟨r, ⟨p, -, room, -⟩, -⟩ := recorded.answered (Nat.lt_of_not_le beyond)
    have := room _ limited
    rw [List.length_take_of_le (by omega)] at this
    omega
  | stranded asks alone unattended => cases unattended

/-- What was seen of an instance that has ended: the steps that recorded the longest course of its
plan, and the one that ended it. -/
theorem Ends.base (sound : M.Sound) (deterministic : M.procedures π.start π.start)
    (ends : M.Ends π true i h es) : ∃ l p event, M.Course π i l p ∧
      es = paces l.length ++ [.start, event] ∧ ∀ j k p, M.Course π j k p → k.length ≤ l.length := by
  cases ends with
  | completed answers alike =>
    have bound := fun j k p => answers.course_le (j := j) (k := k) (p := p) sound deterministic
    obtain ⟨p, course, -, -⟩ := answers
    exact ⟨_, p, _, course, rfl, bound⟩
  | stopped answers last =>
    have bound := fun j k p course => Ends.length_le (j := j) (k := k) sound deterministic
      (.stopped answers last) (Course.recorded (p := p) course)
    obtain ⟨p, course, -, -⟩ := answers
    exact ⟨_, p, _, course, rfl, bound⟩
  | exhausted course limited reached =>
    exact ⟨_, _, _, course, rfl, fun j k p course' => Ends.length_le sound deterministic
      (.exhausted course limited reached) course'.recorded⟩
  | stranded asks alone unattended => cases unattended

theorem Ends.continues (sound : M.Sound) (deterministic : M.procedures π.start π.start)
    (ends : M.Ends π true i h es) (course : M.Course π j k p) :
    paces k.length ++ [.start] <+: es := by
  obtain ⟨l, _, event, -, rfl, bound⟩ := ends.base sound deterministic
  obtain ⟨m, length⟩ := Nat.exists_eq_add_of_le (bound j k p course)
  rw [length, paces_add, List.append_assoc, List.prefix_append_right_inj]
  cases m with
  | zero => exact ⟨[event], rfl⟩
  | succ m => rw [Nat.add_comm, paces_add]; exact ⟨.ready :: (paces m ++ [.start, event]), rfl⟩

theorem Ends.unique (sound : M.Sound) (deterministic : M.procedures π.start π.start)
    (ends : M.Ends π true i h es) (ends' : M.Ends π true j k es') :
    M.HistoryAlike h k ∧ es = es' := by
  have length : h.length = k.length :=
    Nat.le_antisymm (ends'.length_le sound deterministic ends.recorded)
      (ends.length_le sound deterministic ends'.recorded)
  refine ⟨ends.recorded.alike sound deterministic ends'.recorded length (Plan.Agree.refl π _), ?_⟩
  -- One is completed only if the other is: their longest courses have one length.
  have seen : es.length = es'.length := by
    obtain ⟨l, p, _, course, rfl, bound⟩ := ends.base sound deterministic
    obtain ⟨l', p', _, course', rfl, bound'⟩ := ends'.base sound deterministic
    have := Nat.le_antisymm (bound' _ _ _ course) (bound _ _ _ course')
    simp [this]
  cases ends with
  | completed answers alike =>
    cases ends' with
    | completed answers' alike' =>
      simp only [List.length_append, List.length_singleton, Nat.add_right_cancel_iff] at length
      rw [length]
    | stopped => simp at length seen; omega
    | exhausted => simp at length seen; omega
    | stranded asks alone unattended => cases unattended
  | stopped answers last =>
    cases ends' with
    | completed => simp at length seen; omega
    | stopped answers' last' =>
      obtain ⟨-, results⟩ := answers.alike sound deterministic answers' length (Plan.Agree.refl π _)
      rw [length] at last ⊢
      rw [last.unique results rfl last']
    | exhausted course' limited' reached' =>
      obtain ⟨p, -, room, -⟩ := answers
      have := room _ limited'
      omega
    | stranded asks alone unattended => cases unattended
  | exhausted course limited reached =>
    cases ends' with
    | completed => simp at length seen; omega
    | stopped answers' last' =>
      obtain ⟨p, -, room, -⟩ := answers'
      have := room _ limited
      omega
    | exhausted course' limited' reached' =>
      rw [limited] at limited'
      cases limited'
      rw [length]
    | stranded asks alone unattended => cases unattended
  | stranded asks alone unattended => cases unattended

end

end Meaning

end Resumable
