import TenantQueue.Proofs.Program

/-! Programs on a store whose calls may be disrupted. A program that hands on each failure of a call
ends with the first call that is disrupted, and leaves the store as that call found it. -/
namespace TenantQueue

def Disruption.outcome {α : Type} (kind : Call.Kind) : Disruption → Outcome α
  | .failure => .failed (.store ("injected " ++ kind.name))
  | .crash => .crashed (.disrupted kind)

namespace Program
variable {α β σ : Type}

/-- The program comes to a call on a store, if each call before it is made. -/
inductive Comes (backend : Backend σ) : Program α → σ → Call → σ → Prop
  | here {request : Call} {next : Except Failure request.Reply → Program α} {state : σ} :
    Comes backend (call request next) state request state
  | answered {request asked : Call} {next : Except Failure request.Reply → Program α}
    {reply : request.Reply} {state middle last : σ}
    (performed : backend.perform request state = (.ok reply, middle))
    (later : Comes backend (next (.ok reply)) middle asked last) :
    Comes backend (call request next) state asked last
  | refused {request asked : Call} {next : Except Failure request.Reply → Program α}
    {failure : Failure} {state middle last : σ}
    (performed : backend.perform request state = (.failed failure, middle))
    (later : Comes backend (next (.error failure)) middle asked last) :
    Comes backend (call request next) state asked last
  | noted {notice : Notice} {rest : Program α} {asked : Call} {state last : σ}
    (later : Comes backend rest state asked last) :
    Comes backend (note notice rest) state asked last

section
variable {backend : Backend σ} {asked : Call} {state middle last : σ}

theorem ends_answered {request : Call} {next : Except Failure request.Reply → Program α}
    {reply : request.Reply} {outcome : Outcome α}
    (performed : backend.perform request state = (.ok reply, middle))
    (later : (next (.ok reply)).Ends backend middle outcome last) :
    (call request next).Ends backend state outcome last := by
  obtain ⟨notices, ran⟩ := later
  exact ⟨notices, by simp only [run, performed, ran]⟩

theorem ends_refused {request : Call} {next : Except Failure request.Reply → Program α}
    {failure : Failure} {outcome : Outcome α}
    (performed : backend.perform request state = (.failed failure, middle))
    (later : (next (.error failure)).Ends backend middle outcome last) :
    (call request next).Ends backend state outcome last := by
  obtain ⟨notices, ran⟩ := later
  exact ⟨notices, by simp only [run, performed, ran]⟩

theorem ends_broken {request : Call} {next : Except Failure request.Reply → Program α}
    {crash : Crash} (performed : backend.perform request state = (.crashed crash, last)) :
    (call request next).Ends backend state (.crashed crash) last :=
  ⟨[], by simp only [run, performed]⟩

theorem Ends.unique {program : Program α} {first second : Outcome α}
    (once : program.Ends backend state first middle)
    (again : program.Ends backend state second last) : first = second ∧ middle = last := by
  obtain ⟨_, ran⟩ := once
  obtain ⟨_, same⟩ := again
  rw [ran, Prod.mk.injEq, Prod.mk.injEq] at same
  exact ⟨same.1, same.2.2⟩

theorem Comes.of_bind {program : Program α} {next : α → Program β}
    (comes : (program >>= next).Comes backend state asked last) :
    program.Comes backend state asked last ∨
      ∃ value middle, program.Ends backend state (.ok value) middle ∧
        (next value).Comes backend middle asked last := by
  change (program.bind next).Comes backend state asked last at comes
  induction program generalizing state with
  | done value => exact Or.inr ⟨value, state, ends_done value, comes⟩
  | failed failure => cases comes
  | crashed crash => cases comes
  | serve queue after => cases comes
  | note notice rest ih =>
    cases comes with
    | noted later =>
      rcases ih later with within | ⟨value, middle, ended, after⟩
      · exact Or.inl within.noted
      · exact Or.inr ⟨value, middle, ends_note notice ended, after⟩
  | call request after ih =>
    cases comes with
    | here => exact Or.inl .here
    | answered performed later =>
      rcases ih _ later with within | ⟨value, middle, ended, after⟩
      · exact Or.inl (within.answered performed)
      · exact Or.inr ⟨value, middle, ends_answered performed ended, after⟩
    | refused performed later =>
      rcases ih _ later with within | ⟨value, middle, ended, after⟩
      · exact Or.inl (within.refused performed)
      · exact Or.inr ⟨value, middle, ends_refused performed ended, after⟩

theorem Comes.of_perform {request : Call}
    (comes : (perform request).Comes backend state asked last) : asked = request ∧ last = state := by
  cases comes with
  | here => exact ⟨rfl, rfl⟩
  | answered _ later => cases later
  | refused _ later => cases later

theorem not_comes_done (value : α) : ¬(done value).Comes backend state asked last := by
  intro comes
  cases comes

end

/-- The failure of each call is the program's own. -/
def Yields : Program α → Prop
  | done _ => True
  | failed _ => True
  | crashed _ => True
  | call _ next => (∀ failure, next (.error failure) = failed failure) ∧
      ∀ reply, (next (.ok reply)).Yields
  | serve _ _ => False
  | note _ rest => rest.Yields

theorem yields_ofExcept (result : Except Failure α) : (ofExcept result).Yields := by
  cases result <;> trivial

theorem yields_perform (request : Call) : (perform request).Yields :=
  ⟨fun _ => rfl, fun reply => yields_ofExcept (.ok reply)⟩

theorem yields_bind {program : Program α} {next : α → Program β} (first : program.Yields)
    (second : ∀ value, (next value).Yields) : (program >>= next).Yields := by
  change (program.bind next).Yields
  induction program with
  | done value => exact second value
  | failed failure => trivial
  | crashed crash => trivial
  | call request after ih =>
    refine ⟨fun failure => ?_, fun reply => ih _ (first.2 reply)⟩
    exact congrArg (Program.bind · next) (first.1 failure)
  | serve queue after ih => exact first.elim
  | note notice rest ih => exact ih first

end Program

namespace Disrupted
open Program
variable {α σ : Type} {inner : Backend σ} {disruptions : Disruptions} {state last : Disrupted σ}

def Made (state last : Disrupted σ) (kind : Call.Kind) (earlier : Nat) : Prop :=
  state.made kind ≤ earlier ∧ earlier < last.made kind

def Spared (disruptions : Disruptions) (state last : Disrupted σ) : Prop :=
  ∀ kind earlier, state.Made last kind earlier → disruptions kind earlier = none

def Struck (disruptions : Disruptions) (state last : Disrupted σ) (kind : Call.Kind)
    (disruption : Disruption) : Prop :=
  ∃ earlier, state.Made last kind earlier ∧ disruptions kind earlier = some disruption ∧
    ∀ other count, state.Made last other count → disruptions other count ≠ none →
      other = kind ∧ count = earlier

def counted (state : Disrupted σ) (call : Call) (store : σ) : Disrupted σ :=
  ⟨store, state.calls.set call.kind (state.made call.kind + 1)⟩

theorem made_counted (call : Call) (store : σ) (kind : Call.Kind) :
    (state.counted call store).made kind =
      if call.kind = kind then state.made call.kind + 1 else state.made kind :=
  made_set state store call.kind kind

theorem perform_disrupted (inner : Backend σ) {call : Call} {disruption : Disruption}
    (befalls : disruptions call.kind (state.made call.kind) = some disruption) :
    (backend inner disruptions).perform call state =
      (disruption.outcome call.kind, state.counted call state.store) := by
  change perform inner disruptions call state = _
  cases disruption <;> simp only [perform, befalls] <;> rfl

theorem perform_spared {call : Call} {outcome : Outcome call.Reply} {store : σ}
    (spared : disruptions call.kind (state.made call.kind) = none)
    (performed : inner.perform call state.store = (outcome, store)) :
    (backend inner disruptions).perform call state = (outcome, state.counted call store) := by
  change perform inner disruptions call state = _
  simp only [perform, spared, performed, counted]

theorem not_made_self (state : Disrupted σ) (kind : Call.Kind) (earlier : Nat) :
    ¬state.Made state kind earlier := by
  rintro ⟨low, high⟩
  omega

theorem Made.of_counted {call : Call} {store : σ} {kind : Call.Kind} {earlier : Nat}
    (made : (state.counted call store).Made last kind earlier) : state.Made last kind earlier := by
  obtain ⟨low, high⟩ := made
  rw [made_counted] at low
  refine ⟨?_, high⟩
  split at low
  · rename_i same
    subst same
    omega
  · exact low

theorem Made.cases {kind : Call.Kind} {earlier : Nat} (made : state.Made last kind earlier)
    (call : Call) (store : σ) :
    (kind = call.kind ∧ earlier = state.made call.kind) ∨
      (state.counted call store).Made last kind earlier := by
  obtain ⟨low, high⟩ := made
  simp only [Made, made_counted]
  split
  · rename_i same
    subst same
    rcases Nat.eq_or_lt_of_le low with first | above
    · exact Or.inl ⟨rfl, first.symm⟩
    · exact Or.inr ⟨above, high⟩
  · exact Or.inr ⟨low, high⟩

theorem spared_self (state : Disrupted σ) : Spared disruptions state state :=
  fun kind earlier made => absurd made (not_made_self state kind earlier)

theorem Spared.of_counted {call : Call} {store : σ}
    (first : disruptions call.kind (state.made call.kind) = none)
    (others : Spared disruptions (state.counted call store) last) :
    Spared disruptions state last := by
  intro kind earlier made
  rcases made.cases call store with ⟨rfl, rfl⟩ | later
  · exact first
  · exact others kind earlier later

theorem Struck.of_counted {call : Call} {store : σ} {kind : Call.Kind} {disruption : Disruption}
    (first : disruptions call.kind (state.made call.kind) = none)
    (others : Struck disruptions (state.counted call store) last kind disruption) :
    Struck disruptions state last kind disruption := by
  obtain ⟨earlier, made, befalls, only⟩ := others
  refine ⟨earlier, made.of_counted, befalls, ?_⟩
  intro other count madeToo disrupted
  rcases madeToo.cases call store with ⟨rfl, rfl⟩ | later
  · exact absurd first disrupted
  · exact only other count later disrupted

theorem made_of_counted (state : Disrupted σ) (call : Call) (store : σ) :
    state.Made (state.counted call store) call.kind (state.made call.kind) := by
  refine ⟨Nat.le_refl _, ?_⟩
  rw [made_counted, if_pos rfl]
  exact Nat.lt_succ_self _

theorem struck_counted {call : Call} {store : σ} {disruption : Disruption}
    (befalls : disruptions call.kind (state.made call.kind) = some disruption) :
    Struck disruptions state (state.counted call store) call.kind disruption := by
  refine ⟨state.made call.kind, state.made_of_counted call store, befalls, ?_⟩
  intro other count made _
  exact (made.cases call store).resolve_right (not_made_self _ other count)

/-- A program that hands on all failures ends as on the store itself if none of its calls is disrupted.
Otherwise it ends with the first that is, and leaves the store as this call found it. -/
theorem ends_disrupted (inner : Backend σ) (disruptions : Disruptions) (program : Program α)
    (state : Disrupted σ) (yields : program.Yields) :
    ∃ outcome last, program.Ends (backend inner disruptions) state outcome last ∧
      ((program.Ends inner state.store outcome last.store ∧ Spared disruptions state last) ∨
        ∃ asked disruption, program.Comes inner state.store asked last.store ∧
          outcome = disruption.outcome asked.kind ∧
          Struck disruptions state last asked.kind disruption) := by
  induction program generalizing state with
  | done value => exact ⟨_, state, ⟨[], rfl⟩, Or.inl ⟨⟨[], rfl⟩, spared_self state⟩⟩
  | failed failure => exact ⟨_, state, ⟨[], rfl⟩, Or.inl ⟨⟨[], rfl⟩, spared_self state⟩⟩
  | crashed crash => exact ⟨_, state, ⟨[], rfl⟩, Or.inl ⟨⟨[], rfl⟩, spared_self state⟩⟩
  | serve queue next => exact yields.elim
  | note notice rest ih =>
    obtain ⟨outcome, last, ended, account⟩ := ih state yields
    refine ⟨outcome, last, ends_note notice ended, ?_⟩
    rcases account with ⟨same, spared⟩ | ⟨asked, disruption, comes, broken, struck⟩
    · exact Or.inl ⟨ends_note notice same, spared⟩
    · exact Or.inr ⟨asked, disruption, comes.noted, broken, struck⟩
  | call request next ih =>
    obtain ⟨handsOn, goesOn⟩ := yields
    cases befalls : disruptions request.kind (state.made request.kind) with
    | some disruption =>
      refine ⟨disruption.outcome request.kind, state.counted request state.store, ?_,
        Or.inr ⟨request, disruption, .here, rfl, struck_counted befalls⟩⟩
      have performed := perform_disrupted inner befalls
      cases disruption with
      | crash => exact ends_broken performed
      | failure =>
        refine ends_refused performed ?_
        rw [handsOn]
        exact ⟨[], rfl⟩
    | none =>
      cases performed : inner.perform request state.store with
      | mk outcome store =>
        have same := perform_spared befalls performed
        have once : Spared disruptions state (state.counted request store) :=
          (spared_self _).of_counted befalls
        cases outcome with
        | crashed crash =>
          exact ⟨_, _, ends_broken same, Or.inl ⟨ends_broken performed, once⟩⟩
        | failed failure =>
          have fails {τ : Type} (backend : Backend τ) (state : τ) :
              (next (.error failure)).Ends backend state (.failed failure) state := by
            rw [handsOn]
            exact ⟨[], rfl⟩
          exact ⟨_, _, ends_refused same (fails _ _),
            Or.inl ⟨ends_refused performed (fails _ _), once⟩⟩
        | ok reply =>
          obtain ⟨outcome, last, ended, account⟩ :=
            ih (.ok reply) (state.counted request store) (goesOn reply)
          refine ⟨outcome, last, ends_answered same ended, ?_⟩
          rcases account with ⟨plain, spared⟩ | ⟨asked, disruption, comes, broken, struck⟩
          · exact Or.inl ⟨ends_answered performed plain, spared.of_counted befalls⟩
          · exact Or.inr ⟨asked, disruption, comes.answered performed, broken,
              struck.of_counted befalls⟩

end Disrupted
end TenantQueue
