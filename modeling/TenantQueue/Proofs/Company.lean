import TenantQueue.Proofs.Disruption
import TenantQueue.Proofs.Queue.History

/-! One program among others on a store in memory. Whose turn it is next is open; the calls of all stand
in one log, and those of the program itself, with the replies that it was given, follow its text. -/
namespace TenantQueue

namespace Program
variable {α β : Type}

/-- Calls and their replies lead a program to what is left of it. -/
inductive Follows : Program α → List Event → Program α → Prop
  | here (program : Program α) : Follows program [] program
  | made {request : Call} {next : Except Failure request.Reply → Program α}
    {reply : Except Failure request.Reply} {events : List Event} {last : Program α}
    (later : Follows (next reply) events last) :
    Follows (call request next) (⟨request, reply⟩ :: events) last
  | noted {notice : Notice} {rest last : Program α} {events : List Event}
    (later : Follows rest events last) : Follows (note notice rest) events last

theorem Follows.trans {program middle last : Program α} {first second : List Event}
    (once : program.Follows first middle) (again : middle.Follows second last) :
    program.Follows (first ++ second) last := by
  induction once with
  | here program => exact again
  | made _ ih => exact .made (ih again)
  | noted _ ih => exact .noted (ih again)

theorem Follows.allowed {program last : Program α} {events : List Event}
    (follows : program.Follows events last) (Allowed : Call → Prop) (makes : program.Makes Allowed) :
    ∀ event ∈ events, Allowed event.call := by
  induction follows with
  | here program => exact List.forall_mem_nil _
  | made _ ih => exact List.forall_mem_cons.mpr ⟨makes.1, ih (makes.2 _)⟩
  | noted _ ih => exact ih makes

theorem Follows.silent {program last : Program α} {events : List Event}
    (follows : program.Follows events last) (silent : program.Makes fun _ => False) : events = [] :=
  List.eq_nil_iff_forall_not_mem.mpr (follows.allowed _ silent)

/-- The events of two programs in a row are of the first, or all of the first and then of the second. -/
theorem Follows.of_bind {program : Program α} {next : α → Program β} {events : List Event}
    {last : Program β} (follows : (program >>= next).Follows events last) :
    (∃ middle, program.Follows events middle ∧ last = middle >>= next) ∨
      ∃ first second value, events = first ++ second ∧ program.Follows first (done value) ∧
        (next value).Follows second last := by
  change (program.bind next).Follows events last at follows
  induction program generalizing events with
  | done value => exact Or.inr ⟨[], events, value, rfl, .here _, follows⟩
  | failed failure =>
    cases follows with
    | here => exact Or.inl ⟨_, .here _, rfl⟩
  | crashed crash =>
    cases follows with
    | here => exact Or.inl ⟨_, .here _, rfl⟩
  | serve queue after ih =>
    cases follows with
    | here => exact Or.inl ⟨_, .here _, rfl⟩
  | note notice rest ih =>
    cases follows with
    | here => exact Or.inl ⟨_, .here _, rfl⟩
    | noted later =>
      rcases ih later with ⟨middle, within, same⟩ | ⟨first, second, value, split, ended, after⟩
      · exact Or.inl ⟨middle, .noted within, same⟩
      · exact Or.inr ⟨first, second, value, split, .noted ended, after⟩
  | call request after ih =>
    cases follows with
    | here => exact Or.inl ⟨_, .here _, rfl⟩
    | made later =>
      rcases ih _ later with ⟨middle, within, same⟩ | ⟨first, second, value, split, ended, after⟩
      · exact Or.inl ⟨middle, .made within, same⟩
      · exact Or.inr ⟨_ :: first, second, value, by rw [split]; rfl, .made ended, after⟩

theorem Follows.of_bind_done {program : Program α} {next : α → Program β} {events : List Event}
    {result : β} (follows : (program >>= next).Follows events (done result)) :
    ∃ first second value, events = first ++ second ∧ program.Follows first (done value) ∧
      (next value).Follows second (done result) := by
  rcases follows.of_bind with ⟨middle, within, same⟩ | split
  · change done result = middle.bind next at same
    cases middle with
    | done value =>
      refine ⟨events, [], value, (List.append_nil _).symm, within, ?_⟩
      rw [same]
      exact .here _
    | _ => contradiction
  · exact split

theorem Follows.of_perform_bind {request : Call} {next : request.Reply → Program α}
    {events : List Event} {last : Program α}
    (follows : (perform request >>= next).Follows events last) :
    events = [] ∨ ∃ reply rest, events = ⟨request, reply⟩ :: rest ∧
      (rest = [] ∨ ∃ value, reply = .ok value ∧ (next value).Follows rest last) := by
  change (call request fun reply => (ofExcept reply).bind next).Follows events last at follows
  cases follows with
  | here => exact Or.inl rfl
  | @made _ _ reply rest _ later =>
    refine Or.inr ⟨reply, rest, rfl, ?_⟩
    cases reply with
    | error failure =>
      cases later with
      | here => exact Or.inl rfl
    | ok value => exact Or.inr ⟨value, rfl, later⟩

theorem Follows.of_perform {request : Call} {events : List Event} {reply : request.Reply}
    (follows : (perform request).Follows events (done reply)) : events = [⟨request, .ok reply⟩] := by
  cases follows with
  | @made _ _ answer rest _ later =>
    cases answer with
    | error failure => cases later
    | ok value =>
      cases later with
      | here => rfl

/-- The calls are made in this order, until one fails or the program ends otherwise before its end. -/
def Scripted (program : Program α) (calls : List Call) : Prop :=
  ∀ events last, program.Follows events last → events.map Event.call <+: calls ∧
    ∀ value, last = done value → events.map Event.call = calls

theorem scripted_perform (request : Call) : (perform request).Scripted [request] := by
  intro events last follows
  cases follows with
  | here => exact ⟨List.nil_prefix, nofun⟩
  | @made _ _ reply rest _ later =>
    have ended : rest = [] := later.silent (makes_ofExcept reply)
    subst ended
    exact ⟨List.prefix_refl _, fun _ _ => rfl⟩

theorem scripted_silent {program : Program α} (silent : program.Makes fun _ => False) :
    program.Scripted [] := by
  intro events last follows
  rw [follows.silent silent]
  exact ⟨List.prefix_refl _, fun _ _ => rfl⟩

theorem scripted_failed (failure : Failure) (calls : List Call) :
    (failed failure : Program α).Scripted calls := by
  intro events last follows
  cases follows with
  | here => exact ⟨List.nil_prefix, nofun⟩

theorem scripted_bind {program : Program α} {next : α → Program β} {first second : List Call}
    (once : program.Scripted first) (again : ∀ value, (next value).Scripted second) :
    (program >>= next).Scripted (first ++ second) := by
  intro events last follows
  refine ⟨?_, ?_⟩
  · rcases follows.of_bind with ⟨middle, within, _⟩ | ⟨before, after, value, split, ended, later⟩
    · exact (once events middle within).1.trans (List.prefix_append _ _)
    · rw [split, List.map_append, (once before _ ended).2 value rfl]
      exact (List.prefix_append_right_inj _).mpr (again value after last later).1
  · rintro result rfl
    obtain ⟨before, after, value, split, ended, later⟩ := follows.of_bind_done
    rw [split, List.map_append, (once before _ ended).2 value rfl, (again value after _ later).2 result rfl]

def asks? : Program α → Option Call
  | call request _ => some request
  | serve queue _ => some (.pop queue)
  | _ => none

theorem step_store (program : Program α) (store : MemoryStore) :
    (program.step MemoryStore.backend store).2.2 =
      match program.asks? with
      | some request => (store.perform request).2
      | none => store := by
  have answered (request : Call) (outcome : Outcome request.Reply) (next : MemoryStore)
      (performed : MemoryStore.backend.perform request store = (outcome, next)) :
      next = (store.perform request).2 :=
    (congrArg Prod.snd performed).symm
  cases program with
  | call request after =>
    simp only [step, asks?]
    split <;> exact answered request _ _ ‹_›
  | serve queue after =>
    simp only [step, asks?]
    split <;> exact answered (.pop queue) _ _ ‹_›
  | _ => rfl

/-- A step of a program that hands on all failures follows the call that it makes. -/
theorem step_follows (program : Program α) (store : MemoryStore) (yields : program.Yields) :
    (program.step MemoryStore.backend store).1.Yields ∧
      program.Follows (program.asks?.toList.map fun request => ⟨request, (store.perform request).1⟩)
        (program.step MemoryStore.backend store).1 := by
  cases program with
  | done value => exact ⟨yields, .here _⟩
  | failed failure => exact ⟨yields, .here _⟩
  | crashed crash => exact ⟨yields, .here _⟩
  | serve queue after => exact yields.elim
  | note notice rest => exact ⟨yields, .noted (.here _)⟩
  | call request after =>
    have next : ((call request after).step MemoryStore.backend store).1 =
        after (store.perform request).1 := by
      simp only [step, MemoryStore.backend]
      cases (store.perform request).1 <;> rfl
    rw [next]
    refine ⟨?_, .made (.here _)⟩
    cases (store.perform request).1 with
    | ok reply => exact yields.2 reply
    | error failure =>
      rw [yields.1 failure]
      trivial

end Program

/-- A program, others in any number, and the store on which they all work. -/
structure Company (α : Type) where
  program : Program α
  others : List (Program Unit)
  store : MemoryStore

inductive Mover where
  | own
  | other (place : Nat)
  deriving DecidableEq

abbrev Entry := Mover × Call

def Entry.ownCalls (log : List Entry) : List Call :=
  log.filterMap fun entry => if entry.1 = .own then some entry.2 else none

theorem Entry.mem_ownCalls (call : Call) (log : List Entry) :
    call ∈ ownCalls log ↔ (.own, call) ∈ log := by
  rw [ownCalls, List.mem_filterMap]
  constructor
  · rintro ⟨⟨mover, made⟩, member, found⟩
    split at found
    · rename_i own
      obtain rfl := Option.some.inj found
      exact own ▸ member
    · contradiction
  · exact fun member => ⟨_, member, if_pos rfl⟩

namespace Company
variable {α : Type}

def asks? (company : Company α) : Mover → Option Call
  | .own => company.program.asks?
  | .other place => (company.others[place]?).bind Program.asks?

def step (company : Company α) : Mover → Company α
  | .own =>
    let (program, _, store) := company.program.step MemoryStore.backend company.store
    { company with program, store }
  | .other place =>
    match company.others[place]? with
    | some other =>
      let (other, _, store) := other.step MemoryStore.backend company.store
      { company with others := company.others.set place other, store }
    | none => company

def after (company : Company α) (movers : List Mover) : Company α := movers.foldl step company

def log (company : Company α) : List Mover → List Entry
  | [] => []
  | mover :: rest => (company.asks? mover).toList.map (mover, ·) ++ (company.step mover).log rest

theorem step_store (company : Company α) (mover : Mover) :
    (company.step mover).store =
      company.store.performAll (((company.asks? mover).toList.map (mover, ·)).map Prod.snd) := by
  have one (asked : Option Call) (next : MemoryStore)
      (stepped : next = match asked with
        | some request => (company.store.perform request).2
        | none => company.store) :
      next = company.store.performAll ((asked.toList.map (mover, ·)).map Prod.snd) := by
    cases asked <;> exact stepped
  cases mover with
  | own => exact one _ _ (Program.step_store company.program company.store)
  | other place =>
    simp only [step, asks?]
    cases company.others[place]? with
    | none => rfl
    | some other => exact one _ _ (Program.step_store other company.store)

theorem after_store (company : Company α) (movers : List Mover) :
    (company.after movers).store =
      company.store.performAll ((company.log movers).map Prod.snd) := by
  induction movers generalizing company with
  | nil => rfl
  | cons mover rest ih =>
    rw [log, List.map_append, MemoryStore.performAll_append, ← step_store]
    exact ih (company.step mover)

end Company

namespace MemoryStore

def ownEvents (store : MemoryStore) : List Entry → List Event
  | [] => []
  | (.own, call) :: rest => ⟨call, (store.perform call).1⟩ :: (store.perform call).2.ownEvents rest
  | (.other _, call) :: rest => (store.perform call).2.ownEvents rest

theorem ownEvents_append (store : MemoryStore) (first second : List Entry) :
    store.ownEvents (first ++ second) =
      store.ownEvents first ++ (store.performAll (first.map Prod.snd)).ownEvents second := by
  induction first generalizing store with
  | nil => rfl
  | cons entry rest ih =>
    obtain ⟨mover, call⟩ := entry
    cases mover with
    | own => exact congrArg (_ :: ·) (ih _)
    | other place => exact ih _

theorem ownEvents_calls (store : MemoryStore) (log : List Entry) :
    (store.ownEvents log).map Event.call = Entry.ownCalls log := by
  induction log generalizing store with
  | nil => rfl
  | cons entry rest ih =>
    obtain ⟨mover, call⟩ := entry
    cases mover with
    | own => exact congrArg (call :: ·) (ih _)
    | other place => exact ih _

theorem ownEvents_split (store : MemoryStore) (log : List Entry) (before after : List Event)
    (event : Event) (split : store.ownEvents log = before ++ event :: after) :
    ∃ earlier later, log = earlier ++ (.own, event.call) :: later ∧ store.ownEvents earlier = before ∧
      event = ⟨event.call, ((store.performAll (earlier.map Prod.snd)).perform event.call).1⟩ ∧
      ((store.performAll (earlier.map Prod.snd)).perform event.call).2.ownEvents later = after := by
  induction log generalizing store before with
  | nil => simp [ownEvents] at split
  | cons entry rest ih =>
    obtain ⟨mover, call⟩ := entry
    cases mover with
    | other place =>
      obtain ⟨earlier, later, same, past, reply, future⟩ := ih _ before split
      exact ⟨(.other place, call) :: earlier, later, by rw [same]; rfl, past, reply, future⟩
    | own =>
      cases before with
      | nil =>
        obtain ⟨rfl, rfl⟩ := List.cons.inj split
        exact ⟨[], rest, rfl, rfl, rfl, rfl⟩
      | cons first others =>
        obtain ⟨rfl, tail⟩ := List.cons.inj split
        obtain ⟨earlier, later, same, past, reply, future⟩ := ih _ others tail
        exact ⟨(.own, call) :: earlier, later, by rw [same]; rfl, by rw [← past]; rfl, reply, future⟩

end MemoryStore

/-- The program's own calls follow its text, whatever the others do. -/
theorem Company.log_follows {α : Type} (company : Company α) (movers : List Mover)
    (yields : company.program.Yields) :
    company.program.Follows (company.store.ownEvents (company.log movers))
      (company.after movers).program := by
  induction movers generalizing company with
  | nil => exact .here _
  | cons mover rest ih =>
    rw [log, MemoryStore.ownEvents_append, ← step_store]
    cases mover with
    | own =>
      obtain ⟨yieldsOn, once⟩ := Program.step_follows company.program company.store yields
      have events : company.store.ownEvents ((company.asks? .own).toList.map (.own, ·)) =
          company.program.asks?.toList.map fun request =>
            ⟨request, (company.store.perform request).1⟩ := by
        rw [asks?]
        cases company.program.asks? <;> rfl
      rw [events]
      exact once.trans (ih (company.step .own) yieldsOn)
    | other place =>
      have nothing : company.store.ownEvents ((company.asks? (.other place)).toList.map
          (.other place, ·)) = [] := by
        cases company.asks? (.other place) <;> rfl
      have same : (company.step (.other place)).program = company.program := by
        simp only [step]
        split <;> rfl
      rw [nothing, List.nil_append, ← same]
      exact ih (company.step (.other place)) (same ▸ yields)

end TenantQueue
