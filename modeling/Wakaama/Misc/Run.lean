import Mathlib.Data.List.Basic

/-!
# Runs of a step function

Nothing here is about a particular program. A component is a step function from a state and
a call to either a fault or a new state with a reply; `run` drives it over a list of calls.
Two shapes of statement about runs are provided: a condition every call meets in the state
it finds (`StepsMeet`), and a judgement of every event against the events before it
(`EachEvent`). The rules below turn one step lemma into the statement about whole runs.
-/

namespace Wakaama

variable {State Call Reply Fault Event : Type}

/-- A computation whose result is mapped to a value has a result. -/
theorem exceptMap_inv {α β ε : Type} {f : α → β} {x : Except ε α} {b : β}
    (h : x.map f = .ok b) : ∃ a, x = .ok a ∧ f a = b := by
  cases x with
  | error fault => cases h
  | ok a => exact ⟨a, rfl, Except.ok.inj h⟩

/-- A computation that another one follows has a result. -/
theorem exceptBind_inv {α β ε : Type} {x : Except ε α} {f : α → Except ε β} {b : β}
    (h : x.bind f = .ok b) : ∃ a, x = .ok a ∧ f a = .ok b := by
  cases x with
  | error fault => cases h
  | ok a => exact ⟨a, rfl, h⟩

/-- Drive `step` over a list of calls, collecting the replies. -/
def run (step : State → Call → Except Fault (State × Reply)) :
    State → List Call → Except Fault (State × List Reply)
  | s, [] => .ok (s, [])
  | s, call :: calls =>
    match step s call with
    | .error fault => .error fault
    | .ok (s', reply) =>
      match run step s' calls with
      | .error fault => .error fault
      | .ok (final, replies) => .ok (final, reply :: replies)

/-- Every call of the run meets `cond` in the state it finds. -/
def StepsMeet (step : State → Call → Except Fault (State × Reply))
    (cond : State → Call → Prop) : State → List Call → Prop
  | _, [] => True
  | s, call :: calls =>
    cond s call ∧ ∀ s' reply, step s call = .ok (s', reply) → StepsMeet step cond s' calls

/-- Every event is good in view of the events before it, `past` being those before the first. -/
def EachEvent (good : List Event → Event → Prop) : List Event → List Event → Prop
  | _, [] => True
  | past, event :: events => good past event ∧ EachEvent good (past ++ [event]) events

theorem eachEvent_snoc {good : List Event → Event → Prop} {event : Event} :
    ∀ (events past : List Event), EachEvent good past (events ++ [event]) ↔
      EachEvent good past events ∧ good (past ++ events) event := by
  intro events
  induction events with
  | nil => simp [EachEvent]
  | cons first events ih =>
    intro past
    simp [EachEvent, ih, and_assoc]

/-- Every state the run reaches is good in view of the events that led to it, `past` being
those before the first. -/
def EachReached (step : State → Call → Except Fault (State × Reply))
    (good : List (Call × Reply) → State → Prop) :
    List (Call × Reply) → State → List Call → Prop
  | _, _, [] => True
  | past, s, call :: calls => ∀ s' reply, step s call = .ok (s', reply) →
      good (past ++ [(call, reply)]) s' ∧
        EachReached step good (past ++ [(call, reply)]) s' calls

/-- Every call of the run meets `cond` in the state it finds, in view of the events that led
there. -/
def StepsMeetAfter (step : State → Call → Except Fault (State × Reply))
    (cond : List (Call × Reply) → State → Call → Prop) :
    List (Call × Reply) → State → List Call → Prop
  | _, _, [] => True
  | past, s, call :: calls => cond past s call ∧ ∀ s' reply, step s call = .ok (s', reply) →
      StepsMeetAfter step cond (past ++ [(call, reply)]) s' calls

/-- On a concrete run the condition can be evaluated. -/
instance StepsMeet.decidable {step : State → Call → Except Fault (State × Reply)}
    {cond : State → Call → Prop} [∀ s call, Decidable (cond s call)] :
    ∀ (s : State) (calls : List Call), Decidable (StepsMeet step cond s calls)
  | _, [] => isTrue trivial
  | s, call :: calls =>
    match h : step s call with
    | .error _ => decidable_of_iff (cond s call) (by simp [StepsMeet, h])
    | .ok (s', _) =>
      have : Decidable (StepsMeet step cond s' calls) := StepsMeet.decidable s' calls
      decidable_of_iff (cond s call ∧ StepsMeet step cond s' calls) (by simp [StepsMeet, h])

theorem run_nil (step : State → Call → Except Fault (State × Reply)) (s : State) :
    run step s [] = .ok (s, []) := rfl

variable {step : State → Call → Except Fault (State × Reply)} {cond : State → Call → Prop}
  {inv : State → Prop} {P : Call → Prop}

theorem run_cons_ok {s s' : State} {call : Call} {reply : Reply} (h : step s call = .ok (s', reply))
    (calls : List Call) :
    run step s (call :: calls) =
      (run step s' calls).map (fun out => (out.1, reply :: out.2)) := by
  simp only [run, h]
  cases run step s' calls <;> rfl

/-- A successful run takes its first step and then runs on. -/
theorem run_cons_inv {s final : State} {call : Call} {calls : List Call} {replies : List Reply}
    (h : run step s (call :: calls) = .ok (final, replies)) :
    ∃ s' reply rest, step s call = .ok (s', reply) ∧ run step s' calls = .ok (final, rest) ∧
      replies = reply :: rest := by
  simp only [run] at h
  cases hstep : step s call with
  | error fault => simp [hstep] at h
  | ok out =>
    obtain ⟨s', reply⟩ := out
    simp only [hstep] at h
    cases hrest : run step s' calls with
    | error fault => simp [hrest] at h
    | ok out' =>
      obtain ⟨final', rest⟩ := out'
      simp only [hrest, Except.ok.injEq, Prod.mk.injEq] at h
      obtain ⟨rfl, rfl⟩ := h
      exact ⟨s', reply, rest, rfl, hrest, rfl⟩

/-- A run whose first part is known. -/
theorem run_append_ok {s' : State} (later : List Call) :
    ∀ (calls : List Call) (s : State) (replies : List Reply),
      run step s calls = .ok (s', replies) →
      run step s (calls ++ later) =
        (run step s' later).map fun out => (out.1, replies ++ out.2) := by
  intro calls
  induction calls with
  | nil =>
    intro s replies h
    obtain ⟨rfl, rfl⟩ := Prod.mk.inj (Except.ok.inj h)
    rw [List.nil_append]
    cases run step s later <;> rfl
  | cons call calls ih =>
    intro s replies h
    obtain ⟨s1, reply, rest, hstep, hrest, rfl⟩ := run_cons_inv h
    rw [List.cons_append, run_cons_ok hstep, ih s1 rest hrest]
    cases run step s' later <;> rfl

/-- There is a reply to every call. -/
theorem run_length :
    ∀ (calls : List Call) (s final : State) (replies : List Reply),
      run step s calls = .ok (final, replies) → replies.length = calls.length := by
  intro calls
  induction calls with
  | nil =>
    intro s final replies hrun
    cases hrun
    rfl
  | cons call calls ih =>
    intro s final replies hrun
    obtain ⟨s', reply, rest, -, hrest, rfl⟩ := run_cons_inv hrun
    simp [ih s' final rest hrest]

/-- The invariant rule: what every step that meets `cond` preserves, a run of such steps
preserves. -/
theorem run_invariant
    (hstep : ∀ s call s' reply, inv s → cond s call → step s call = .ok (s', reply) → inv s') :
    ∀ (calls : List Call) (s final : State) (replies : List Reply), inv s →
      StepsMeet step cond s calls → run step s calls = .ok (final, replies) → inv final := by
  intro calls
  induction calls with
  | nil =>
    intro s final replies hinv _ hrun
    simp only [run_nil, Except.ok.injEq, Prod.mk.injEq] at hrun
    exact hrun.1 ▸ hinv
  | cons call calls ih =>
    intro s final replies hinv hmeet hrun
    obtain ⟨s', reply, rest, hs, hr, -⟩ := run_cons_inv hrun
    exact ih s' final rest (hstep s call s' reply hinv hmeet.1 hs) (hmeet.2 s' reply hs) hr

/-- The invariant rule with the events so far at hand. -/
theorem run_history {inv : List (Call × Reply) → State → Prop}
    (hstep : ∀ past s call s' reply, inv past s → cond s call → step s call = .ok (s', reply) → inv (past ++ [(call, reply)]) s') :
    ∀ (calls : List Call) (past : List (Call × Reply)) (s final : State) (replies : List Reply),
      inv past s → StepsMeet step cond s calls → run step s calls = .ok (final, replies) →
      inv (past ++ calls.zip replies) final := by
  intro calls
  induction calls with
  | nil =>
    intro past s final replies hinv _ hrun
    simp only [run_nil, Except.ok.injEq, Prod.mk.injEq] at hrun
    simpa using hrun.1 ▸ hinv
  | cons call calls ih =>
    intro past s final replies hinv hmeet hrun
    obtain ⟨s', reply, rest, hs, hr, rfl⟩ := run_cons_inv hrun
    have hnext := ih (past ++ [(call, reply)]) s' final rest
      (hstep past s call s' reply hinv hmeet.1 hs) (hmeet.2 s' reply hs) hr
    simpa using hnext

/-- A run that never faults and whose every event is good against its past is exactly a run
whose every call meets `cond`, as soon as this holds of single steps in the states that the
invariant relates to their past. -/
theorem run_eachEvent_iff {good : List (Call × Reply) → Call × Reply → Prop}
    (inv : List (Call × Reply) → State → Prop)
    (hstep : ∀ past s call, inv past s → ∃ s' reply, step s call = .ok (s', reply) ∧ (good past (call, reply) ↔ cond s call) ∧ (cond s call → inv (past ++ [(call, reply)]) s')) :
    ∀ (calls : List Call) (past : List (Call × Reply)) (s : State), inv past s →
      ((∃ final replies, run step s calls = .ok (final, replies) ∧
          EachEvent good past (calls.zip replies)) ↔
        StepsMeet step cond s calls) := by
  intro calls
  induction calls with
  | nil =>
    intro past s _
    simp [StepsMeet, EachEvent, run_nil]
  | cons call calls ih =>
    intro past s hinv
    obtain ⟨s', reply, hs, hgood, hnext⟩ := hstep past s call hinv
    constructor
    · rintro ⟨final, replies, hrun, heach⟩
      obtain ⟨s'', reply', rest, hs', hrest, rfl⟩ := run_cons_inv hrun
      obtain ⟨rfl, rfl⟩ : s' = s'' ∧ reply = reply' := by simpa [hs] using hs'
      have hcond : cond s call := hgood.mp heach.1
      refine ⟨hcond, fun t r ht => ?_⟩
      obtain ⟨rfl, rfl⟩ : s' = t ∧ reply = r := by simpa [hs] using ht
      exact (ih _ s' (hnext hcond)).mp ⟨final, rest, hrest, heach.2⟩
    · rintro ⟨hcond, hmeet⟩
      obtain ⟨final, rest, hrest, heach⟩ := (ih _ s' (hnext hcond)).mpr (hmeet s' reply hs)
      refine ⟨final, reply :: rest, ?_, hgood.mpr hcond, heach⟩
      simp [run_cons_ok hs, hrest, Except.map]

/-- The rule for judgements of events: what the invariant says of every step that meets `cond`
holds of every event of a run of such steps. -/
theorem run_eachEvent {good : List (Call × Reply) → Call × Reply → Prop}
    {inv : List (Call × Reply) → State → Prop}
    (hstep : ∀ past s call s' reply, inv past s → cond s call → step s call = .ok (s', reply) → good past (call, reply) ∧ inv (past ++ [(call, reply)]) s') :
    ∀ (calls : List Call) (past : List (Call × Reply)) (s final : State) (replies : List Reply),
      inv past s → StepsMeet step cond s calls → run step s calls = .ok (final, replies) →
      EachEvent good past (calls.zip replies) := by
  intro calls
  induction calls with
  | nil => exact fun _ _ _ _ _ _ _ => trivial
  | cons call calls ih =>
    intro past s final replies hinv hmeet hrun
    obtain ⟨s', reply, rest, hs, hr, rfl⟩ := run_cons_inv hrun
    obtain ⟨hgood, hnext⟩ := hstep past s call s' reply hinv hmeet.1 hs
    exact ⟨hgood, ih _ s' final rest hnext (hmeet.2 s' reply hs) hr⟩

/-- When, under an invariant, a step from a good state leads to a good one exactly if it meets
`cond`, a run from a good state stays in good ones exactly if its calls meet `cond`. A run that
faults is judged up to the fault. -/
theorem eachReached_iff {good : List (Call × Reply) → State → Prop} (inv : State → Prop)
    (hinv : ∀ s call s' reply, inv s → step s call = .ok (s', reply) → inv s')
    (hstep : ∀ past s call s' reply, inv s → good past s → step s call = .ok (s', reply) → (good (past ++ [(call, reply)]) s' ↔ cond s call))
    (hfault : ∀ s call fault, inv s → step s call = .error fault → cond s call) :
    ∀ (calls : List Call) (past : List (Call × Reply)) (s : State), inv s → good past s →
      (EachReached step good past s calls ↔ StepsMeet step cond s calls) := by
  intro calls
  induction calls with
  | nil =>
    intro past s _ _
    simp [EachReached, StepsMeet]
  | cons call calls ih =>
    intro past s hi hgood
    unfold EachReached StepsMeet
    constructor
    · intro h
      constructor
      · cases hs : step s call with
        | error fault => exact hfault s call fault hi hs
        | ok out =>
          obtain ⟨s', reply⟩ := out
          exact (hstep past s call s' reply hi hgood hs).mp (h s' reply hs).1
      · intro s' reply hs
        obtain ⟨hgood', hrest⟩ := h s' reply hs
        exact (ih _ s' (hinv s call s' reply hi hs) hgood').mp hrest
    · intro h s' reply hs
      have hgood' := (hstep past s call s' reply hi hgood hs).mpr h.1
      exact ⟨hgood', (ih _ s' (hinv s call s' reply hi hs) hgood').mpr (h.2 s' reply hs)⟩

/-- The invariant rule with the events so far at hand, for every state the run reaches. -/
theorem eachReached_of_invariant {cond : List (Call × Reply) → State → Call → Prop}
    {inv : List (Call × Reply) → State → Prop}
    (hstep : ∀ past s call s' reply, inv past s → cond past s call → step s call = .ok (s', reply) → inv (past ++ [(call, reply)]) s') :
    ∀ (calls : List Call) (past : List (Call × Reply)) (s : State), inv past s →
      StepsMeetAfter step cond past s calls → EachReached step inv past s calls := by
  intro calls
  induction calls with
  | nil => exact fun _ _ _ _ => trivial
  | cons call calls ih =>
    intro past s hinv hmeet s' reply hs
    have hnext := hstep past s call s' reply hinv hmeet.1 hs
    exact ⟨hnext, ih _ s' hnext (hmeet.2 s' reply hs)⟩

theorem EachReached.imp {good good' : List (Call × Reply) → State → Prop}
    (himp : ∀ past s, good past s → good' past s) :
    ∀ (calls : List Call) (past : List (Call × Reply)) (s : State),
      EachReached step good past s calls → EachReached step good' past s calls := by
  intro calls
  induction calls with
  | nil => exact fun _ _ _ => trivial
  | cons call calls ih =>
    intro past s h s' reply hs
    obtain ⟨hgood, hrest⟩ := h s' reply hs
    exact ⟨himp _ _ hgood, ih _ s' hrest⟩

/-- The state behind the last call is good. -/
theorem EachReached.last {step : State → Call → Except Fault (State × Reply)}
    {good : List (Call × Reply) → State → Prop} {final s' : State} {call : Call} {reply : Reply}
    (hlast : step final call = .ok (s', reply)) :
    ∀ (calls : List Call) (past : List (Call × Reply)) (s : State) (replies : List Reply),
      EachReached step good past s (calls ++ [call]) → run step s calls = .ok (final, replies) →
      good (past ++ calls.zip replies ++ [(call, reply)]) s' := by
  intro calls
  induction calls with
  | nil =>
    intro past s replies h hrun
    obtain ⟨rfl, rfl⟩ := Prod.mk.inj (Except.ok.inj hrun)
    simpa using (h s' reply hlast).1
  | cons first calls ih =>
    intro past s replies h hrun
    obtain ⟨s1, reply1, rest, hstep, hrest, rfl⟩ := run_cons_inv hrun
    have := ih (past ++ [(first, reply1)]) s1 rest (h s1 reply1 hstep).2 hrest
    simpa using this

/-- Steps that meet `cond` after a past of the invariant are carried out and keep it, then so
does a run of them. -/
theorem run_total_after {cond : List (Call × Reply) → State → Call → Prop}
    {inv : List (Call × Reply) → State → Prop}
    (hstep : ∀ past s call, inv past s → cond past s call → ∃ s' reply, step s call = .ok (s', reply) ∧ inv (past ++ [(call, reply)]) s') :
    ∀ (calls : List Call) (past : List (Call × Reply)) (s : State), inv past s →
      StepsMeetAfter step cond past s calls →
        (∃ final replies, run step s calls = .ok (final, replies)) ∧
          EachReached step inv past s calls := by
  intro calls
  induction calls with
  | nil => exact fun _ s _ _ => ⟨⟨s, [], rfl⟩, trivial⟩
  | cons call calls ih =>
    intro past s hi hmeet
    obtain ⟨s', reply, hs, hi'⟩ := hstep past s call hi hmeet.1
    obtain ⟨⟨final, replies, hrun⟩, hreached⟩ := ih _ s' hi' (hmeet.2 s' reply hs)
    refine ⟨⟨final, reply :: replies, by simp [run_cons_ok hs, hrun, Except.map]⟩, ?_⟩
    intro s'' reply' hs'
    obtain ⟨rfl, rfl⟩ : s' = s'' ∧ reply = reply' := by simpa [hs] using hs'
    exact ⟨hi', hreached⟩

/-- The projection rule. Calls of `own` act on `view s` as they act on `s`, and the others
leave `view s` alone; then the run seen through `view` is the run of the own calls. -/
theorem run_view (view : State → State) {own : Call → Bool}
    (hinv : ∀ s call s' reply, inv s → cond s call → step s call = .ok (s', reply) → inv s')
    (hown : ∀ s call s' reply, inv s → cond s call → own call = true → step s call = .ok (s', reply) → step (view s) call = .ok (view s', reply))
    (hother : ∀ s call s' reply, inv s → cond s call → own call = false → step s call = .ok (s', reply) → view s' = view s) :
    ∀ (calls : List Call) (s final : State) (replies : List Reply), inv s →
      StepsMeet step cond s calls → run step s calls = .ok (final, replies) →
      run step (view s) (calls.filter own) = .ok (view final,
        ((calls.zip replies).filter fun event => own event.1).map Prod.snd) := by
  intro calls
  induction calls with
  | nil =>
    intro s final replies _ _ hrun
    simp only [run_nil, Except.ok.injEq, Prod.mk.injEq] at hrun
    simp [run_nil, hrun.1]
  | cons call calls ih =>
    intro s final replies hi hmeet hrun
    obtain ⟨s', reply, rest, hs, hr, rfl⟩ := run_cons_inv hrun
    have hrest := ih s' final rest (hinv s call s' reply hi hmeet.1 hs) (hmeet.2 s' reply hs) hr
    cases hc : own call with
    | true =>
      have hstep := hown s call s' reply hi hmeet.1 hc hs
      simp [hc, run_cons_ok hstep, hrest, Except.map]
    | false =>
      rw [hother s call s' reply hi hmeet.1 hc hs] at hrest
      simp [hc, hrest]

/-- Steps that meet `cond` from a state of the invariant never fault, then neither does a run
of them. -/
theorem run_total
    (hstep : ∀ s call, inv s → cond s call → ∃ s' reply, step s call = .ok (s', reply) ∧ inv s') :
    ∀ (calls : List Call) (s : State), inv s → StepsMeet step cond s calls →
      ∃ final replies, run step s calls = .ok (final, replies) := by
  intro calls
  induction calls with
  | nil => exact fun s _ _ => ⟨s, [], rfl⟩
  | cons call calls ih =>
    intro s hi hmeet
    obtain ⟨s', reply, hs, hi'⟩ := hstep s call hi hmeet.1
    obtain ⟨final, replies, hrun⟩ := ih s' hi' (hmeet.2 s' reply hs)
    exact ⟨final, reply :: replies, by simp [run_cons_ok hs, hrun, Except.map]⟩

/-- A condition on the steps of a run follows from another where the invariant holds. -/
theorem StepsMeet.imp {cond' : State → Call → Prop}
    (hinv : ∀ s call s' reply, inv s → cond s call → step s call = .ok (s', reply) → inv s')
    (himp : ∀ s call, inv s → cond s call → cond' s call) :
    ∀ (calls : List Call) (s : State), inv s → StepsMeet step cond s calls →
      StepsMeet step cond' s calls := by
  intro calls
  induction calls with
  | nil => exact fun _ _ _ => trivial
  | cons call calls ih =>
    intro s hi hmeet
    exact ⟨himp s call hi hmeet.1, fun s' reply hs =>
      ih s' (hinv s call s' reply hi hmeet.1 hs) (hmeet.2 s' reply hs)⟩

/-- A condition on the calls alone joins a condition on the steps. -/
theorem StepsMeet.and_forall :
    ∀ (calls : List Call) (s : State), StepsMeet step cond s calls → (∀ call ∈ calls, P call) →
      StepsMeet step (fun s call => cond s call ∧ P call) s calls := by
  intro calls
  induction calls with
  | nil => exact fun _ _ _ => trivial
  | cons call calls ih =>
    intro s hmeet hP
    exact ⟨⟨hmeet.1, hP call (by simp)⟩, fun s' reply hs =>
      ih s' (hmeet.2 s' reply hs) fun c hc => hP c (List.mem_cons_of_mem _ hc)⟩

/-- A step whose outcome is known, and the steps after it. -/
theorem StepsMeet.cons {step : State → Call → Except Fault (State × Reply)}
    {cond : State → Call → Prop} {s s' : State} {call : Call} {reply : Reply} {calls : List Call}
    (hcond : cond s call) (hs : step s call = .ok (s', reply))
    (hrest : StepsMeet step cond s' calls) : StepsMeet step cond s (call :: calls) := by
  refine ⟨hcond, fun t r ht => ?_⟩
  obtain ⟨rfl, rfl⟩ := Prod.mk.inj (Except.ok.inj (hs.symm.trans ht))
  exact hrest

theorem StepsMeet.after :
    ∀ (calls : List Call) (past : List (Call × Reply)) (s : State),
      StepsMeet step cond s calls → StepsMeetAfter step (fun _ s call => cond s call) past s calls := by
  intro calls
  induction calls with
  | nil => exact fun _ _ _ => trivial
  | cons call calls ih =>
    intro past s hmeet
    exact ⟨hmeet.1, fun s' reply hs => ih _ s' (hmeet.2 s' reply hs)⟩

/-- A condition on the calls alone is met after every past. -/
theorem StepsMeetAfter.of_forall :
    ∀ (calls : List Call) (past : List (Call × Reply)) (s : State), (∀ call ∈ calls, P call) →
      StepsMeetAfter step (fun _ _ call => P call) past s calls := by
  intro calls
  induction calls with
  | nil => exact fun _ _ _ => trivial
  | cons call calls ih =>
    intro past s hP
    exact ⟨hP call (by simp), fun s' reply _ =>
      ih _ s' fun c hc => hP c (List.mem_cons_of_mem _ hc)⟩

theorem StepsMeetAfter.and_forall {cond : List (Call × Reply) → State → Call → Prop} :
    ∀ (calls : List Call) (past : List (Call × Reply)) (s : State),
      StepsMeetAfter step cond past s calls → (∀ call ∈ calls, P call) →
      StepsMeetAfter step (fun past s call => cond past s call ∧ P call) past s calls := by
  intro calls
  induction calls with
  | nil => exact fun _ _ _ _ => trivial
  | cons call calls ih =>
    intro past s hmeet hP
    exact ⟨⟨hmeet.1, hP call (by simp)⟩, fun s' reply hs =>
      ih _ s' (hmeet.2 s' reply hs) fun c hc => hP c (List.mem_cons_of_mem _ hc)⟩

end Wakaama
