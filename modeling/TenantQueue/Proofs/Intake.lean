import TenantQueue.Proofs.Engine.Sweep

/-! How many records a program puts into a store: the pushes that the store answers well. A program in two parts puts
what its parts put, and one that catches its failure has put the same before. -/
namespace TenantQueue.Program
variable {α β σ : Type}

/-- The pushes that are answered well when a program is run. -/
def puts (backend : Backend σ) : Program α → σ → Nat
  | done _, _ => 0
  | failed _, _ => 0
  | crashed _, _ => 0
  | call request next, state =>
    match backend.perform request state with
    | (.ok reply, after) =>
      (if request.kind = .push then 1 else 0) + (next (.ok reply)).puts backend after
    | (.failed failure, after) => (next (.error failure)).puts backend after
    | (.crashed _, _) => 0
  | serve queue next, state =>
    match popUntil backend queue state with
    | (.ok reply, _, after) => (next (.ok reply)).puts backend after
    | (.failed failure, _, after) => (next (.error failure)).puts backend after
    | (.crashed _, _, _) => 0
  | note _ rest, state => rest.puts backend state

theorem puts_bind (backend : Backend σ) (program : Program α) (next : α → Program β) (state : σ) :
    (program >>= next).puts backend state = program.puts backend state +
      match program.run backend state with
      | (.ok value, _, after) => (next value).puts backend after
      | _ => 0 := by
  change (program.bind next).puts backend state = _
  induction program generalizing state with
  | done value => exact (Nat.zero_add _).symm
  | failed failure => rfl
  | crashed crash => rfl
  | note notice rest ih =>
    simp only [bind, puts, run]
    rw [ih]
    rcases rest.run backend state with ⟨_ | _ | _, notices, last⟩ <;> rfl
  | call request after ih =>
    simp only [bind, puts, run]
    cases backend.perform request state with
    | mk outcome middle =>
      cases outcome with
      | ok reply =>
        dsimp only
        rw [ih, Nat.add_assoc]
      | failed failure => exact ih _ _
      | crashed crash => rfl
  | serve queue after ih =>
    simp only [bind, puts, run]
    rcases popUntil backend queue state with ⟨found | failure | crash, notices, middle⟩
    · dsimp only
      rw [ih]
      rcases (after (.ok found)).run backend middle with ⟨_ | _ | _, _, _⟩ <;> rfl
    · dsimp only
      rw [ih]
      rcases (after (.error failure)).run backend middle with ⟨_ | _ | _, _, _⟩ <;> rfl
    · rfl

theorem puts_attempt (backend : Backend σ) (program : Program α) (state : σ) :
    program.attempt.puts backend state = program.puts backend state := by
  induction program generalizing state with
  | done value => rfl
  | failed failure => rfl
  | crashed crash => rfl
  | note notice rest ih => exact ih state
  | call request after ih =>
    simp only [attempt, puts]
    split
    · rw [ih]
    · exact ih _ _
    · rfl
  | serve queue after ih =>
    simp only [attempt, puts]
    split
    · exact ih _ _
    · exact ih _ _
    · rfl

/-- A program that makes no push puts nothing in. -/
theorem puts_eq_zero (backend : Backend σ) (program : Program α) (state : σ)
    (makes : program.Makes fun call => call.kind ≠ .push) : program.puts backend state = 0 := by
  induction program generalizing state with
  | done value => rfl
  | failed failure => rfl
  | crashed crash => rfl
  | note notice rest ih => exact ih state makes
  | call request after ih =>
    simp only [puts, makes.1, if_false]
    split
    · rw [ih _ _ (makes.2 _)]
    · exact ih _ _ (makes.2 _)
    · rfl
  | serve queue after ih =>
    simp only [puts]
    split
    · exact ih _ _ (makes.2 _)
    · exact ih _ _ (makes.2 _)
    · rfl

/-- If a program ends well, what it gives fits the number of records that it has put in. -/
def Tallies (backend : Backend σ) (program : Program α) (Fits : α → Nat → Prop) : Prop :=
  ∀ state value last, program.Ends backend state (.ok value) last → Fits value (program.puts backend state)

section
variable {backend : Backend σ} {Fits : α → Nat → Prop}

theorem Tallies.mono {program : Program α} {Weaker : α → Nat → Prop} (tallies : program.Tallies backend Fits)
    (weaker : ∀ value count, Fits value count → Weaker value count) : program.Tallies backend Weaker :=
  fun state value last ends => weaker _ _ (tallies state value last ends)

theorem tallies_bind {program : Program α} {next : α → Program β} {Whole : β → Nat → Prop}
    (first : program.Tallies backend Fits)
    (second : ∀ value count, Fits value count →
      (next value).Tallies backend fun result more => Whole result (count + more)) :
    (program >>= next).Tallies backend Whole := by
  rintro state result last ⟨notices, ran⟩
  change (program.bind next).run backend state = _ at ran
  rw [run_bind] at ran
  rw [puts_bind]
  cases begun : program.run backend state with
  | mk outcome others =>
    obtain ⟨earlier, middle⟩ := others
    rw [begun] at ran
    cases outcome with
    | failed failure => cases ran
    | crashed crash => cases ran
    | ok value =>
      have fits := first state value middle ⟨earlier, begun⟩
      refine second value _ fits middle result last ?_
      cases continued : (next value).run backend middle with
      | mk outcome others =>
        obtain ⟨later, after⟩ := others
        simp only [continued] at ran
        cases ran
        exact ⟨later, continued⟩

theorem tallies_done (value : α) (fits : Fits value 0) : (done value).Tallies backend Fits := by
  rintro state result last ⟨notices, ran⟩
  cases ran
  exact fits

theorem tallies_crashed (crash : Crash) : (crashed crash).Tallies backend Fits := by
  rintro state value last ⟨notices, ran⟩
  cases ran

theorem tallies_silent (program : Program α) (makes : program.Makes fun call => call.kind ≠ .push) :
    program.Tallies backend fun _ count => count = 0 :=
  fun state _ _ _ => puts_eq_zero backend program state makes

theorem tallies_push (queue : String) (tenant : Tenant) (record : Bytes) (score : Double) :
    (perform (.push queue tenant record score)).Tallies backend fun _ count => count = 1 := by
  rintro state value last ⟨notices, ran⟩
  rw [run_perform] at ran
  simp only [perform, puts]
  rcases performed : backend.perform (.push queue tenant record score) state with ⟨_ | _ | _, after⟩
  · rfl
  · rw [performed] at ran
    cases ran
  · rw [performed] at ran
    cases ran

theorem tallies_once {program : Program α} {next : α → Program β}
    (once : program.Tallies backend fun _ count => count = 1)
    (silent : ∀ value, (next value).Makes fun call => call.kind ≠ .push) :
    (program >>= next).Tallies backend fun _ count => count = 1 := by
  refine tallies_bind once ?_
  rintro value _ rfl
  exact (tallies_silent _ (silent value)).mono fun _ more none => by rw [none]

theorem tallies_later {program : Program α} {next : α → Program β} {Fits : β → Nat → Prop}
    (silent : program.Makes fun call => call.kind ≠ .push)
    (later : ∀ value, (next value).Tallies backend Fits) : (program >>= next).Tallies backend Fits := by
  refine tallies_bind (tallies_silent program silent) ?_
  rintro value _ rfl
  exact (later value).mono fun _ more fits => by rwa [Nat.zero_add]

end
end TenantQueue.Program
