import TenantQueue.Program

/-! Running a program step after step, and running it on a store with call counters in front. Where
no call is disrupted the counters change nothing, and the pops of one serving are one more than
the tenants it found drained. -/
namespace TenantQueue

def Backend.Steady {σ : Type} (backend : Backend σ) : Prop :=
  ∀ call state crash, (backend.perform call state).1 ≠ .crashed crash

theorem MemoryStore.backend_steady : backend.Steady := by
  intro call store crash crashed
  change Outcome.ofExcept (store.perform call).1 = _ at crashed
  cases ended : (store.perform call).1 with
  | ok reply => simp [ended, Outcome.ofExcept] at crashed
  | error failure => simp [ended, Outcome.ofExcept] at crashed

namespace Program
variable {α β σ : Type}

theorem popUntil_eq (backend : Backend σ) (queue : String) (state : σ) :
    popUntil backend queue state =
      match backend.perform (.pop queue) state with
      | (.ok .empty, next) => (.ok none, [], next)
      | (.ok (.popped tenant record), next) => (.ok (some (tenant, record)), [], next)
      | (.ok (.drained tenant), next) =>
        let (outcome, notices, last) := popUntil backend queue next
        (outcome, drainedNotice queue tenant :: notices, last)
      | (.failed failure, next) => (.failed failure, [], next)
      | (.crashed crash, next) => (.crashed crash, [], next) := by
  rw [popUntil]
  split <;> simp [*]

/-- What holds of a state if it holds of the one that each drained tenant leaves behind. -/
theorem popInduction (backend : Backend σ) (queue : String) {motive : σ → Prop}
    (step : ∀ state, (∀ tenant next,
      backend.perform (.pop queue) state = (.ok (.drained tenant), next) → motive next) →
      motive state)
    (state : σ) : motive state := by
  induction patience : backend.patience queue state using Nat.strongRecOn generalizing state with
  | ind left ih =>
    apply step state
    intro tenant next performed
    have less := backend.patience_lt queue state tenant next performed
    exact ih _ (patience ▸ less) next rfl

/-- After a program that ends well the next one runs on the state it leaves. -/
theorem run_bind (backend : Backend σ) (program : Program α) (next : α → Program β) (state : σ) :
    (program.bind next).run backend state =
      match program.run backend state with
      | (.ok value, notices, state) =>
        let (outcome, more, state) := (next value).run backend state
        (outcome, notices ++ more, state)
      | (.failed failure, notices, state) => (.failed failure, notices, state)
      | (.crashed crash, notices, state) => (.crashed crash, notices, state) := by
  induction program generalizing state with
  | done value => simp [bind, run]
  | failed failure => simp [bind, run]
  | crashed crash => simp [bind, run]
  | call request after ih =>
    simp only [bind, run]
    split
    · exact ih _ _
    · exact ih _ _
    · rfl
  | serve queue after ih =>
    simp only [bind, run]
    split
    · rename_i reply notices middle _
      rw [ih]
      cases ran : (after (.ok reply)).run backend middle with
      | mk outcome rest => cases outcome <;> simp
    · rename_i failure notices middle _
      rw [ih]
      cases ran : (after (.error failure)).run backend middle with
      | mk outcome rest => cases outcome <;> simp
    · rfl
  | note notice rest ih =>
    simp only [bind, run]
    rw [ih]
    cases ran : rest.run backend state with
    | mk outcome more => cases outcome <;> simp

theorem run_perform (backend : Backend σ) (request : Call) (state : σ) :
    (perform request).run backend state =
      ((backend.perform request state).1, [], (backend.perform request state).2) := by
  unfold perform
  simp only [run]
  split
  · rename_i reply next performed
    simp [performed, ofExcept, run]
  · rename_i failure next performed
    simp [performed, ofExcept, run]
  · rename_i crash next performed
    simp [performed]

theorem popUntil_keeps (backend : Backend σ) (Kept : σ → Prop) (queue : String)
    (keeps : ∀ state, Kept state → Kept (backend.perform (.pop queue) state).2) (state : σ)
    (holds : Kept state) : Kept (popUntil backend queue state).2.2 := by
  induction state using popInduction backend queue with
  | step state ih =>
    rw [popUntil_eq]
    have kept := keeps state holds
    cases performed : backend.perform (.pop queue) state with
    | mk outcome next =>
      rw [performed] at kept
      cases outcome with
      | failed failure => exact kept
      | crashed crash => exact kept
      | ok reply =>
        cases reply with
        | empty => exact kept
        | popped tenant record => exact kept
        | drained tenant => exact ih tenant next performed kept

def Ends (backend : Backend σ) (program : Program α) (state : σ) (outcome : Outcome α) (last : σ) :
    Prop :=
  ∃ notices, program.run backend state = (outcome, notices, last)

section
variable {backend : Backend σ} {program : Program α} {next : α → Program β} {state middle last : σ}

theorem Ends.bind_ok {value : α} {outcome : Outcome β}
    (first : program.Ends backend state (.ok value) middle)
    (second : (next value).Ends backend middle outcome last) :
    (program >>= next).Ends backend state outcome last := by
  obtain ⟨notices, ran⟩ := first
  obtain ⟨more, continued⟩ := second
  refine ⟨notices ++ more, ?_⟩
  change (program.bind next).run backend state = _
  simp only [run_bind, ran, continued]

theorem Ends.bind_failed {failure : Failure}
    (first : program.Ends backend state (.failed failure) last) :
    (program >>= next).Ends backend state (.failed failure) last := by
  obtain ⟨notices, ran⟩ := first
  refine ⟨notices, ?_⟩
  change (program.bind next).run backend state = _
  simp only [run_bind, ran]

theorem Ends.bind_crashed {crash : Crash}
    (first : program.Ends backend state (.crashed crash) last) :
    (program >>= next).Ends backend state (.crashed crash) last := by
  obtain ⟨notices, ran⟩ := first
  refine ⟨notices, ?_⟩
  change (program.bind next).run backend state = _
  simp only [run_bind, ran]

theorem ends_done (value : α) : (done value).Ends backend state (.ok value) state := ⟨[], rfl⟩

theorem ends_note (notice : Notice) {outcome : Outcome α}
    (rest : program.Ends backend state outcome last) :
    (note notice program).Ends backend state outcome last := by
  obtain ⟨notices, ran⟩ := rest
  exact ⟨notice :: notices, by rw [run, ran]⟩

theorem ends_perform (request : Call) {outcome : Outcome request.Reply}
    (performed : backend.perform request state = (outcome, last)) :
    (perform request).Ends backend state outcome last :=
  ⟨[], by rw [run_perform, performed]⟩

end

def steps (backend : Backend σ) : Nat → Program α → σ → Program α × σ
  | 0, program, state => (program, state)
  | count + 1, program, state =>
    steps backend count (program.step backend state).1 (program.step backend state).2.2

structure EndsAfter (backend : Backend σ) (count : Nat) (program : Program α) (state : σ)
    (outcome : Outcome α) (last : σ) : Prop where
  unended : ∀ fewer < count, (steps backend fewer program state).1.outcome? = none
  ended : (steps backend count program state).1.outcome? = some outcome
  last : (steps backend count program state).2 = last

theorem EndsAfter.succ {backend : Backend σ} {count : Nat} {program : Program α} {state last : σ}
    {outcome : Outcome α} (begun : program.outcome? = none)
    (rest : EndsAfter backend count (program.step backend state).1 (program.step backend state).2.2
      outcome last) : EndsAfter backend (count + 1) program state outcome last := by
  refine ⟨?_, rest.ended, rest.last⟩
  intro fewer less
  cases fewer with
  | zero => exact begun
  | succ fewer => exact rest.unended fewer (Nat.lt_of_succ_lt_succ less)

theorem endsAfter_zero {backend : Backend σ} {program : Program α} {state : σ} {outcome : Outcome α}
    (ended : program.outcome? = some outcome) : EndsAfter backend 0 program state outcome state :=
  ⟨fun _ none => absurd none (Nat.not_lt_zero _), ended, rfl⟩

/-- A program that takes its steps in a row ends as it does when it is run. -/
theorem exists_endsAfter (backend : Backend σ) (program : Program α) (state : σ) :
    ∃ count, EndsAfter backend count program state (program.run backend state).1
      (program.run backend state).2.2 := by
  induction program generalizing state with
  | done value => exact ⟨0, endsAfter_zero rfl⟩
  | failed failure => exact ⟨0, endsAfter_zero rfl⟩
  | crashed crash => exact ⟨0, endsAfter_zero rfl⟩
  | note notice rest ih =>
    obtain ⟨count, ends⟩ := ih state
    exact ⟨count + 1, ends.succ rfl⟩
  | call request next ih =>
    cases performed : backend.perform request state with
    | mk outcome after =>
      cases outcome with
      | ok reply =>
        obtain ⟨count, ends⟩ := ih (.ok reply) after
        refine ⟨count + 1, .succ rfl ?_⟩
        simpa only [step, run, performed] using ends
      | failed failure =>
        obtain ⟨count, ends⟩ := ih (.error failure) after
        refine ⟨count + 1, .succ rfl ?_⟩
        simpa only [step, run, performed] using ends
      | crashed crash =>
        refine ⟨1, .succ rfl ?_⟩
        simp only [step, run, performed]
        exact endsAfter_zero rfl
  | serve queue next ih =>
    induction state using popInduction backend queue with
    | step state again =>
      have popped := popUntil_eq backend queue state
      cases performed : backend.perform (.pop queue) state with
      | mk outcome after =>
        rw [performed] at popped
        cases outcome with
        | failed failure =>
          obtain ⟨count, ends⟩ := ih (.error failure) after
          refine ⟨count + 1, .succ rfl ?_⟩
          simpa only [step, run, performed, popped] using ends
        | crashed crash =>
          refine ⟨1, .succ rfl ?_⟩
          simp only [step, run, performed, popped]
          exact endsAfter_zero rfl
        | ok reply =>
          cases reply with
          | empty =>
            obtain ⟨count, ends⟩ := ih (.ok none) after
            refine ⟨count + 1, .succ rfl ?_⟩
            simpa only [step, run, performed, popped] using ends
          | popped tenant record =>
            obtain ⟨count, ends⟩ := ih (.ok (some (tenant, record))) after
            refine ⟨count + 1, .succ rfl ?_⟩
            simpa only [step, run, performed, popped] using ends
          | drained tenant =>
            obtain ⟨count, ends⟩ := again tenant after performed
            have on : ((serve queue next).run backend state).1 = ((serve queue next).run backend after).1 ∧
                ((serve queue next).run backend state).2.2 =
                  ((serve queue next).run backend after).2.2 := by
              simp only [run, popped]
              rcases popUntil backend queue after with ⟨_ | _ | _, notices, last⟩ <;> exact ⟨rfl, rfl⟩
            refine ⟨count + 1, .succ rfl ?_⟩
            rw [on.1, on.2]
            simpa only [step, performed] using ends

def Makes (Allowed : Call → Prop) : Program α → Prop
  | done _ => True
  | failed _ => True
  | crashed _ => True
  | call request next => Allowed request ∧ ∀ reply, (next reply).Makes Allowed
  | serve queue next => Allowed (.pop queue) ∧ ∀ reply, (next reply).Makes Allowed
  | note _ rest => rest.Makes Allowed

section
variable {Allowed : Call → Prop}

theorem makes_bind (program : Program α) (next : α → Program β) (first : program.Makes Allowed)
    (second : ∀ value, (next value).Makes Allowed) : (program >>= next).Makes Allowed := by
  induction program with
  | done value => exact second value
  | failed failure => trivial
  | crashed crash => trivial
  | call request after ih => exact ⟨first.1, fun reply => ih reply (first.2 reply)⟩
  | serve queue after ih => exact ⟨first.1, fun reply => ih reply (first.2 reply)⟩
  | note notice rest ih => exact ih first

theorem makes_attempt (program : Program α) (makes : program.Makes Allowed) :
    program.attempt.Makes Allowed := by
  induction program with
  | done value => trivial
  | failed failure => trivial
  | crashed crash => trivial
  | call request after ih => exact ⟨makes.1, fun reply => ih reply (makes.2 reply)⟩
  | serve queue after ih => exact ⟨makes.1, fun reply => ih reply (makes.2 reply)⟩
  | note notice rest ih => exact ih makes

theorem makes_ofExcept (result : Except Failure α) : (ofExcept result).Makes Allowed := by
  cases result <;> trivial

theorem makes_perform (request : Call) (allowed : Allowed request) :
    (perform request).Makes Allowed :=
  ⟨allowed, makes_ofExcept⟩

theorem run_keeps_of_makes (backend : Backend σ) (Kept : σ → Prop)
    (keeps : ∀ call state, Allowed call → Kept state → Kept (backend.perform call state).2)
    (program : Program α) (state : σ) (makes : program.Makes Allowed) (holds : Kept state) :
    Kept (program.run backend state).2.2 := by
  induction program generalizing state with
  | done value => exact holds
  | failed failure => exact holds
  | crashed crash => exact holds
  | call request after ih =>
    have kept := keeps request state makes.1 holds
    simp only [run]
    cases performed : backend.perform request state with
    | mk outcome next =>
      rw [performed] at kept
      cases outcome with
      | ok reply => exact ih (.ok reply) next (makes.2 _) kept
      | failed failure => exact ih (.error failure) next (makes.2 _) kept
      | crashed crash => exact kept
  | serve queue after ih =>
    have kept := popUntil_keeps backend Kept queue
      (fun state => keeps (.pop queue) state makes.1) state holds
    simp only [run]
    cases served : popUntil backend queue state with
    | mk outcome rest =>
      obtain ⟨notices, next⟩ := rest
      rw [served] at kept
      cases outcome with
      | ok found => exact ih (.ok found) next (makes.2 _) kept
      | failed failure => exact ih (.error failure) next (makes.2 _) kept
      | crashed crash => exact kept
  | note notice rest ih => exact ih state makes holds

theorem makes_true (program : Program α) : program.Makes fun _ => True := by
  induction program with
  | done value => trivial
  | failed failure => trivial
  | crashed crash => trivial
  | call request after ih => exact ⟨trivial, ih⟩
  | serve queue after ih => exact ⟨trivial, ih⟩
  | note notice rest ih => exact ih

theorem run_keeps (backend : Backend σ) (Kept : σ → Prop)
    (keeps : ∀ call state, Kept state → Kept (backend.perform call state).2)
    (program : Program α) (state : σ) (holds : Kept state) :
    Kept (program.run backend state).2.2 :=
  run_keeps_of_makes backend Kept (fun call state _ => keeps call state) program state
    (makes_true program) holds

end

def Notes (Allowed : Notice → Prop) : Program α → Prop
  | done _ => True
  | failed _ => True
  | crashed _ => True
  | call _ next => ∀ reply, (next reply).Notes Allowed
  | serve queue next => (∀ tenant, Allowed (drainedNotice queue tenant)) ∧
      ∀ reply, (next reply).Notes Allowed
  | note notice rest => Allowed notice ∧ rest.Notes Allowed

section
variable {Allowed : Notice → Prop}

theorem notes_bind (program : Program α) (next : α → Program β) (first : program.Notes Allowed)
    (second : ∀ value, (next value).Notes Allowed) : (program >>= next).Notes Allowed := by
  induction program with
  | done value => exact second value
  | failed failure => trivial
  | crashed crash => trivial
  | call request after ih => exact fun reply => ih reply (first reply)
  | serve queue after ih => exact ⟨first.1, fun reply => ih reply (first.2 reply)⟩
  | note notice rest ih => exact ⟨first.1, ih first.2⟩

theorem notes_attempt (program : Program α) (notes : program.Notes Allowed) :
    program.attempt.Notes Allowed := by
  induction program with
  | done value => trivial
  | failed failure => trivial
  | crashed crash => trivial
  | call request after ih => exact fun reply => ih reply (notes reply)
  | serve queue after ih => exact ⟨notes.1, fun reply => ih reply (notes.2 reply)⟩
  | note notice rest ih => exact ⟨notes.1, ih notes.2⟩

theorem notes_ofExcept (result : Except Failure α) : (ofExcept result).Notes Allowed := by
  cases result <;> trivial

theorem notes_perform (request : Call) : (perform request).Notes Allowed := notes_ofExcept

theorem notes_log (severity : Severity) (text : String) (allowed : Allowed (.log severity text)) :
    (log severity text).Notes Allowed :=
  ⟨allowed, trivial⟩

theorem step_notes (backend : Backend σ) (program : Program α) (state : σ) (notes : program.Notes Allowed) :
    (program.step backend state).1.Notes Allowed ∧
      ∀ notice ∈ (program.step backend state).2.1, Allowed notice := by
  cases program with
  | done value => exact ⟨trivial, List.forall_mem_nil _⟩
  | failed failure => exact ⟨trivial, List.forall_mem_nil _⟩
  | crashed crash => exact ⟨trivial, List.forall_mem_nil _⟩
  | note notice rest => exact ⟨notes.2, List.forall_mem_singleton.mpr notes.1⟩
  | call request next =>
    simp only [step]
    split
    · exact ⟨notes _, List.forall_mem_nil _⟩
    · exact ⟨notes _, List.forall_mem_nil _⟩
    · exact ⟨trivial, List.forall_mem_nil _⟩
  | serve queue next =>
    simp only [step]
    split
    · exact ⟨notes.2 _, List.forall_mem_nil _⟩
    · exact ⟨notes.2 _, List.forall_mem_nil _⟩
    · exact ⟨notes, List.forall_mem_singleton.mpr (notes.1 _)⟩
    · exact ⟨notes.2 _, List.forall_mem_nil _⟩
    · exact ⟨trivial, List.forall_mem_nil _⟩

theorem popUntil_notes (backend : Backend σ) (queue : String) (state : σ)
    (drained : ∀ tenant, Allowed (drainedNotice queue tenant)) :
    ∀ notice ∈ (popUntil backend queue state).2.1, Allowed notice := by
  induction state using popInduction backend queue with
  | step state ih =>
    rw [popUntil_eq]
    split
    · exact List.forall_mem_nil _
    · exact List.forall_mem_nil _
    · exact List.forall_mem_cons.mpr ⟨drained _, ih _ _ ‹_›⟩
    · exact List.forall_mem_nil _
    · exact List.forall_mem_nil _

theorem run_notes (backend : Backend σ) (program : Program α) (state : σ) (notes : program.Notes Allowed) :
    ∀ notice ∈ (program.run backend state).2.1, Allowed notice := by
  induction program generalizing state with
  | done value => exact List.forall_mem_nil _
  | failed failure => exact List.forall_mem_nil _
  | crashed crash => exact List.forall_mem_nil _
  | note notice rest ih => exact List.forall_mem_cons.mpr ⟨notes.1, ih state notes.2⟩
  | call request next ih =>
    simp only [run]
    split
    · exact ih _ _ (notes _)
    · exact ih _ _ (notes _)
    · exact List.forall_mem_nil _
  | serve queue next ih =>
    have served := popUntil_notes backend queue state notes.1
    simp only [run]
    split
    · rename_i popped
      rw [popped] at served
      exact List.forall_mem_append.mpr ⟨served, ih _ _ (notes.2 _)⟩
    · rename_i popped
      rw [popped] at served
      exact List.forall_mem_append.mpr ⟨served, ih _ _ (notes.2 _)⟩
    · rename_i popped
      rw [popped] at served
      exact served

end

def Calm : Program α → Prop
  | done _ => True
  | failed _ => True
  | crashed _ => False
  | call _ next => ∀ reply, (next reply).Calm
  | serve _ next => ∀ reply, (next reply).Calm
  | note _ rest => rest.Calm

theorem calm_bind (program : Program α) (next : α → Program β) (first : program.Calm)
    (second : ∀ value, (next value).Calm) : (program >>= next).Calm := by
  induction program with
  | done value => exact second value
  | failed failure => trivial
  | crashed crash => exact first
  | call request after ih => exact fun reply => ih reply (first reply)
  | serve queue after ih => exact fun reply => ih reply (first reply)
  | note notice rest ih => exact ih first

theorem Calm.not_crashed {program : Program α} (calm : program.Calm) (crash : Crash) :
    program.outcome? ≠ some (.crashed crash) := by
  intro ended
  cases program with
  | crashed crash => exact calm
  | _ => simp [outcome?] at ended

theorem calm_ofExcept (result : Except Failure α) : (ofExcept result).Calm := by
  cases result <;> trivial

theorem calm_perform (request : Call) : (perform request).Calm := calm_ofExcept

theorem popUntil_lasts (backend : Backend σ) (steady : backend.Steady) (queue : String) (state : σ)
    (crash : Crash) : (popUntil backend queue state).1 ≠ .crashed crash := by
  induction state using popInduction backend queue with
  | step state ih =>
    have lasts := steady (.pop queue) state
    rw [popUntil_eq]
    cases performed : backend.perform (.pop queue) state with
    | mk outcome next =>
      rw [performed] at lasts
      cases outcome with
      | failed failure => exact nofun
      | crashed broken => exact absurd rfl (lasts broken)
      | ok reply =>
        cases reply with
        | empty => exact nofun
        | popped tenant record => exact nofun
        | drained tenant => exact ih tenant next performed

theorem Calm.run_lasts {program : Program α} (calm : program.Calm) (backend : Backend σ)
    (steady : backend.Steady) (state : σ) (crash : Crash) :
    (program.run backend state).1 ≠ .crashed crash := by
  induction program generalizing state with
  | done value => exact nofun
  | failed failure => exact nofun
  | crashed crash => exact calm.elim
  | note notice rest ih => exact ih calm state
  | call request after ih =>
    have lasts := steady request state
    simp only [run]
    split
    · exact ih _ (calm _) _
    · exact ih _ (calm _) _
    · rename_i broken next performed
      exact absurd (congrArg Prod.fst performed) (lasts broken)
  | serve queue after ih =>
    have lasts := popUntil_lasts backend steady queue state
    simp only [run]
    split
    · exact ih _ (calm _) _
    · exact ih _ (calm _) _
    · rename_i broken notices next popped
      exact absurd (congrArg Prod.fst popped) (lasts broken)

theorem step_call (backend : Backend σ) (steady : backend.Steady) (request : Call)
    (next : Except Failure request.Reply → Program α) (state : σ) :
    ∃ reply, ((call request next).step backend state).1 = next reply := by
  have lasts := steady request state
  simp only [step]
  split
  · exact ⟨_, rfl⟩
  · exact ⟨_, rfl⟩
  · rename_i crash after performed
    exact absurd (congrArg Prod.fst performed) (lasts crash)

theorem step_calm (backend : Backend σ) (steady : backend.Steady) (program : Program α) (state : σ)
    (calm : program.Calm) : (program.step backend state).1.Calm := by
  cases program with
  | done value => exact calm
  | failed failure => exact calm
  | crashed crash => exact calm
  | note notice rest => exact calm
  | call request next =>
    obtain ⟨reply, answered⟩ := step_call backend steady request next state
    rw [answered]
    exact calm reply
  | serve queue next =>
    have lasts := steady (.pop queue) state
    simp only [step]
    split
    · exact calm _
    · exact calm _
    · exact calm
    · exact calm _
    · rename_i crash after performed
      exact absurd (congrArg Prod.fst performed) (lasts crash)

theorem step_silent (backend : Backend σ) (program : Program α) (state : σ)
    (silent : program.Makes fun _ => False) :
    (program.step backend state).1.Makes fun _ => False := by
  cases program with
  | done value => exact silent
  | failed failure => exact silent
  | crashed crash => exact silent
  | note notice rest => exact silent
  | call request next => exact silent.1.elim
  | serve queue next => exact silent.1.elim

end Program

namespace Disrupted
variable {σ : Type}

def never : Disruptions := fun _ _ => none

theorem perform_never (inner : Backend σ) (call : Call) (state : Disrupted σ) :
    perform inner never call state =
      ((inner.perform call state.store).1, ⟨(inner.perform call state.store).2,
        state.calls.set call.kind (state.made call.kind + 1)⟩) := rfl

theorem made_set (state : Disrupted σ) (store : σ) (kind other : Call.Kind) :
    (⟨store, state.calls.set kind (state.made kind + 1)⟩ : Disrupted σ).made other =
      if kind = other then state.made kind + 1 else state.made other := by
  by_cases same : kind = other <;> simp [made, same]

/-- A serving pops once for each drained tenant that it meets, and once more. -/
theorem popUntil_never (inner : Backend σ) (queue : String) (state : Disrupted σ) :
    ∃ last : Disrupted σ,
      Program.popUntil (backend inner never) queue state =
        ((Program.popUntil inner queue state.store).1,
          (Program.popUntil inner queue state.store).2.1, last) ∧
      last.store = (Program.popUntil inner queue state.store).2.2 ∧
      last.made .pop =
        state.made .pop + (Program.popUntil inner queue state.store).2.1.length + 1 := by
  induction state using Program.popInduction (backend inner never) queue with
  | step state ih =>
    rw [Program.popUntil_eq (backend inner never), Program.popUntil_eq inner]
    cases performed : inner.perform (.pop queue) state.store with
    | mk outcome next =>
      have popped : (backend inner never).perform (.pop queue) state =
          (outcome, ⟨next, state.calls.set .pop (state.made .pop + 1)⟩) := by
        change perform inner never (.pop queue) state = _
        rw [perform_never, performed]
        rfl
      have once := made_set state next .pop .pop
      rw [if_pos rfl] at once
      rw [popped]
      cases outcome with
      | failed failure => exact ⟨_, rfl, rfl, once⟩
      | crashed crash => exact ⟨_, rfl, rfl, once⟩
      | ok reply =>
        cases reply with
        | empty => exact ⟨_, rfl, rfl, once⟩
        | popped tenant record => exact ⟨_, rfl, rfl, once⟩
        | drained tenant =>
          obtain ⟨last, ran, store, made⟩ := ih tenant _ popped
          rw [once] at made
          refine ⟨last, ?_, store, ?_⟩
          · simp only [ran]
          · rw [made, List.length_cons, ← Nat.add_assoc]
            exact congrArg (· + 1) (Nat.add_right_comm _ _ _)

theorem backend_steady {inner : Backend σ} (steady : inner.Steady) {disruptions : Disruptions}
    (mild : ∀ kind earlier, disruptions kind earlier ≠ some .crash) :
    (backend inner disruptions).Steady := by
  intro call state crash crashed
  change (perform inner disruptions call state).1 = _ at crashed
  cases befalls : disruptions call.kind (state.made call.kind) with
  | none =>
    simp only [perform, befalls] at crashed
    exact steady call state.store crash crashed
  | some disruption =>
    cases disruption with
    | failure => simp [perform, befalls] at crashed
    | crash => exact mild _ _ befalls

end Disrupted

theorem Fault.disruptions_mild {faults : List Fault} (mild : ∀ fault ∈ faults, fault.crashes = false)
    (kind : Call.Kind) (earlier : Nat) : disruptions faults kind earlier ≠ some .crash := by
  intro befalls
  obtain ⟨fault, found, crashes⟩ := Option.map_eq_some_iff.mp befalls
  rw [mild fault (List.mem_of_find?_eq_some found)] at crashes
  contradiction

end TenantQueue
