import TenantQueue.Proofs.Foreman.Moves

/-! A foreman stays orderly, whatever its members do and whenever it is started and stopped. -/
namespace TenantQueue.Foreman
variable {σ : Type} {foreman next : Foreman} {elapsed : Nat} {member : Member} {milestones : List Milestone}

structure Fits (foreman : Foreman) (index : Nat) (worker moved : Worker) (added : List Nat) :
    Prop where
  vacant : foreman.assigner.isOver = false → index ∈ foreman.claimed →
    moved.slot = none ∧ moved.phase.isOpen
  listed : added = [] ∨ added = [index] ∧ index ∉ foreman.claimed ∧ moved.slot = none ∧
    moved.phase.isOpen
  loaded : moved.slot.isSome → moved.phase.isOpen
  regular : Regular foreman.config.queue moved.phase
  stays : moved.phase = .ended → foreman.assigner.isOver
  lasts : worker.phase ≠ .ended

theorem Orderly.unclaimed (orderly : foreman.Orderly) {index : Nat} {slot : Option Task}
    {phase : WorkerPhase} (found : foreman.workers[index]? = some (Worker.mk slot phase))
    (closed : phase.isOpen = false) (on : foreman.assigner.isOver = false) :
    index ∉ foreman.claimed := by
  intro listed
  obtain ⟨other, same, looks⟩ := orderly.vacant on index listed
  rw [found, Option.some.injEq, Worker.mk.injEq] at same
  rw [same.2, looks] at closed
  contradiction

theorem Orderly.empty (orderly : foreman.Orderly) {index : Nat} {slot : Option Task}
    {phase : WorkerPhase} (found : foreman.workers[index]? = some (Worker.mk slot phase))
    (closed : phase.isOpen = false) : slot = none := by
  cases slot with
  | none => rfl
  | some task =>
    have looks := orderly.loaded index task phase found
    rw [closed] at looks
    contradiction

theorem ne_ended {phase : WorkerPhase} (on : phase.isOver = false) : phase ≠ .ended := by
  rintro rfl
  contradiction

theorem Orderly.fits_closed (orderly : foreman.Orderly) {index : Nat} {slot : Option Task}
    {phase : WorkerPhase} (found : foreman.workers[index]? = some (Worker.mk slot phase))
    (closed : phase.isOpen = false) (lasts : phase.isOver = false) (after : WorkerPhase)
    (regular : Regular foreman.config.queue after) (stays : after.isOver = false) :
    foreman.Fits index ⟨slot, phase⟩ ⟨slot, after⟩ [] where
  vacant on listed := absurd listed (orderly.unclaimed found closed on)
  listed := Or.inl rfl
  loaded present := by
    rw [orderly.empty found closed] at present
    contradiction
  regular := regular
  stays ended := absurd ended (ne_ended stays)
  lasts := ne_ended lasts

theorem Orderly.fits_taken (orderly : foreman.Orderly) {index : Nat} {task : Task}
    {phase : WorkerPhase} (found : foreman.workers[index]? = some (Worker.mk (some task) phase))
    (looks : phase.isOpen) (after : WorkerPhase) (regular : Regular foreman.config.queue after)
    (busy : after.isOver = false) : foreman.Fits index ⟨some task, phase⟩ ⟨none, after⟩ [] where
  vacant on listed := by
    obtain ⟨other, same, _⟩ := orderly.vacant on index listed
    simp [found] at same
  listed := Or.inl rfl
  loaded present := by contradiction
  regular := regular
  stays ended := absurd ended (ne_ended busy)
  lasts ended := by
    rw [show phase = .ended from ended] at looks
    contradiction

theorem WorkerMove.fits {index : Nat} {worker moved : Worker} {added : List Nat}
    (move : foreman.WorkerMove index worker moved added milestones) (orderly : foreman.Orderly)
    (found : foreman.workers[index]? = some worker) : foreman.Fits index worker moved added := by
  cases move with
  | announces slot => exact orderly.fits_closed found rfl rfl _ trivial rfl
  | joins slot on =>
    have closed := orderly.empty found rfl
    subst closed
    exact ⟨fun _ _ => ⟨rfl, rfl⟩, Or.inr ⟨rfl, orderly.unclaimed found rfl on, rfl, rfl⟩, fun _ => rfl,
      trivial, fun ended => absurd ended (ne_ended rfl), ne_ended rfl⟩
  | withdraws slot => exact orderly.fits_closed found rfl rfl _ trivial rfl
  | leaves =>
    exact ⟨fun _ _ => ⟨rfl, rfl⟩, Or.inl rfl, fun _ => rfl, trivial,
      fun ended => absurd ended (ne_ended rfl), ne_ended rfl⟩
  | takes task since leaving handler looks handled =>
    exact orderly.fits_taken found looks _ trivial rfl
  | refuses task since leaving looks unhandled =>
    exact orderly.fits_taken found looks _ (Or.inl rfl) rfl
  | ends closed =>
    refine ⟨?_, Or.inl rfl, ?_, trivial, fun _ => closed, ne_ended rfl⟩
    · intro on
      rw [closed] at on
      contradiction
    · intro present
      contradiction
  | handled slot execution progress result ended =>
    exact orderly.fits_closed found rfl rfl _ (Or.inl rfl) rfl
  | releases slot execution result program silent calm =>
    exact orderly.fits_closed found rfl rfl _ (Or.inr ⟨silent, calm⟩) rfl
  | logs slot execution result program next silent silentNext calm =>
    exact orderly.fits_closed found rfl rfl _ (Or.inr ⟨silentNext, calm⟩) rfl
  | returns slot execution result program phase silent back =>
    rcases back with rfl | rfl
    · exact orderly.fits_closed found rfl rfl _ trivial rfl
    · exact orderly.fits_closed found rfl rfl _ trivial rfl

theorem getElem?_moved {index : Nat} {worker moved : Worker}
    (found : foreman.workers[index]? = some worker)
    (workers : next.workers = foreman.workers.set index moved) (other : Nat) :
    next.workers[other]? = if other = index then some moved else foreman.workers[other]? := by
  obtain ⟨inside, _⟩ := List.getElem?_eq_some_iff.mp found
  rw [workers, List.getElem?_set]
  by_cases same : index = other
  · subst same
    rw [if_pos rfl, if_pos rfl, if_pos inside]
  · rw [if_neg same, if_neg (Ne.symm same)]

theorem Fits.orderly {index : Nat} {worker moved : Worker} {added : List Nat}
    (fits : foreman.Fits index worker moved added) (orderly : foreman.Orderly)
    (found : foreman.workers[index]? = some worker) (keeps : foreman.Keeps next)
    (assigner : next.assigner = foreman.assigner)
    (workers : next.workers = foreman.workers.set index moved)
    (idle : next.idle = foreman.idle ++ added) : next.Orderly := by
  have held : next.held? = foreman.held? := by rw [held?, assigner, held?]
  have claimed : next.claimed = foreman.claimed ++ added := by
    rw [Foreman.claimed, held, idle, Foreman.claimed, List.append_assoc]
  have look := getElem?_moved found workers
  have phases (other : Nat) (slot : Option Task) (phase : WorkerPhase)
      (got : next.workers[other]? = some (Worker.mk slot phase)) :
      (other = index ∧ moved = ⟨slot, phase⟩) ∨ foreman.workers[other]? = some (Worker.mk slot phase) := by
    rw [look] at got
    split at got
    · rename_i same
      exact Or.inl ⟨same, Option.some.inj got⟩
    · exact Or.inr got
  constructor
  case crew =>
    rw [workers, List.length_set, keeps.config]
    exact orderly.crew
  case listed =>
    rw [claimed]
    rcases fits.listed with rfl | ⟨rfl, fresh, _⟩
    · rw [List.append_nil]
      exact orderly.listed
    · exact List.nodup_append.mpr ⟨orderly.listed, by simp, by
        rintro other listed _ same rfl
        rw [List.mem_singleton.mp same] at listed
        exact fresh listed⟩
  case vacant =>
    rw [assigner, claimed]
    intro on other listed
    rw [look]
    by_cases same : other = index
    · subst same
      rw [if_pos rfl]
      have both : moved.slot = none ∧ moved.phase.isOpen := by
        rcases List.mem_append.mp listed with before | new
        · exact fits.vacant on before
        · rcases fits.listed with rfl | ⟨rfl, _, empty, looks⟩
          · simp at new
          · exact ⟨empty, looks⟩
      obtain ⟨slot, phase⟩ := moved
      obtain ⟨rfl, looks⟩ := both
      exact ⟨phase, rfl, looks⟩
    · rw [if_neg same]
      rcases List.mem_append.mp listed with before | new
      · exact orderly.vacant on other before
      · rcases fits.listed with rfl | ⟨rfl, _⟩
        · simp at new
        · exact absurd (List.mem_singleton.mp new) same
  case loaded =>
    intro other task phase got
    rcases phases other _ phase got with ⟨_, rfl⟩ | before
    · exact fits.loaded rfl
    · exact orderly.loaded other task phase before
  case regular =>
    intro other slot phase got
    rw [keeps.config]
    rcases phases other slot phase got with ⟨_, rfl⟩ | before
    · exact fits.regular
    · exact orderly.regular other slot phase before
  case stays =>
    intro other slot got
    rw [assigner]
    rcases phases other slot _ got with ⟨_, rfl⟩ | before
    · exact fits.stays rfl
    · exact orderly.stays other slot before
  case assigns =>
    rw [assigner]
    exact orderly.assigns
  case created =>
    intro created
    rw [keeps.lifecycle] at created
    rw [(orderly.created created).1] at found
    contradiction
  case stopped =>
    intro stopped
    rw [keeps.lifecycle] at stopped
    obtain ⟨slot, phase⟩ := worker
    exact absurd ((orderly.stopped stopped).2 index slot phase found) fits.lasts

theorem not_created (running : foreman.isRunning) : foreman.lifecycle ≠ .created := by
  intro created
  simp [isRunning, created] at running

theorem not_stopped (running : foreman.isRunning) : foreman.lifecycle ≠ .stopped := by
  intro stopped
  simp [isRunning, stopped] at running

theorem Orderly.assigner_moved (orderly : foreman.Orderly) (keeps : foreman.Keeps next)
    (running : foreman.isRunning) (on : foreman.assigner.isOver = false)
    (crew : next.workers.length = foreman.workers.length)
    (claimed : ∃ rest, (next.claimed ++ rest).Perm foreman.claimed)
    (unmoved : ∀ index ∈ next.claimed, next.workers[index]? = foreman.workers[index]?)
    (phases : ∀ (index : Nat) slot phase, next.workers[index]? = some (Worker.mk slot phase) →
      (slot.isSome → phase.isOpen) ∧ ∃ before, foreman.workers[index]? = some (Worker.mk before phase))
    (assigns : Assigns next.assigner) : next.Orderly := by
  obtain ⟨rest, perm⟩ := claimed
  refine ⟨?crew, ?listed, ?vacant, ?loaded, ?regular, ?stays, assigns, ?created, ?stopped⟩
  case crew =>
    rw [crew, keeps.config]
    exact orderly.crew
  case listed =>
    exact (List.nodup_append.mp (perm.nodup_iff.mpr orderly.listed)).1
  case vacant =>
    intro _ index listed
    rw [unmoved index listed]
    exact orderly.vacant on index (perm.mem_iff.mp (List.mem_append_left rest listed))
  case loaded =>
    intro index task phase got
    exact (phases index _ phase got).1 rfl
  case regular =>
    intro index slot phase got
    obtain ⟨before, found⟩ := (phases index slot phase got).2
    rw [keeps.config]
    exact orderly.regular index before phase found
  case stays =>
    intro index slot got
    obtain ⟨before, found⟩ := (phases index slot _ got).2
    rw [orderly.stays index before found] at on
    contradiction
  case created =>
    intro created
    rw [keeps.lifecycle] at created
    exact absurd created (not_created running)
  case stopped =>
    intro stopped
    rw [keeps.lifecycle] at stopped
    exact absurd stopped (not_stopped running)

theorem AssignerMove.on {before after : AssignerPhase} {idle : List Nat} {workers : List Worker}
    (move : foreman.AssignerMove before after idle workers milestones) : before.isOver = false := by
  cases move with
  | stops phase stopping empty => rcases empty with rfl | ⟨_, rfl⟩ | ⟨_, rfl⟩ <;> rfl
  | _ => rfl

theorem AssignerMove.orderly (orderly : foreman.Orderly) (keeps : foreman.Keeps next)
    (running : foreman.isRunning)
    (move : foreman.AssignerMove foreman.assigner next.assigner next.idle next.workers milestones) :
    next.Orderly := by
  have on := move.on
  have loaded (index : Nat) (slot : Option Task) (phase : WorkerPhase)
      (found : foreman.workers[index]? = some (Worker.mk slot phase)) :
      (slot.isSome → phase.isOpen) ∧ ∃ before, foreman.workers[index]? = some (Worker.mk before phase) := by
    refine ⟨?_, slot, found⟩
    intro present
    obtain ⟨task, rfl⟩ := Option.isSome_iff_exists.mp present
    exact orderly.loaded index task phase found
  have nodup := orderly.listed
  have assigns := orderly.assigns
  simp only [claimed, held?] at nodup
  -- All but one leave the workers as they are, and claim those that were claimed or all but one of them.
  generalize before : foreman.assigner = phase at move nodup assigns
  generalize after : next.assigner = phaseAfter at move
  generalize line : next.idle = lineAfter at move
  generalize crew : next.workers = crewAfter at move
  have moved (same : crewAfter = foreman.workers) (assigns : Assigns next.assigner)
      (claimed : ∃ rest, (next.claimed ++ rest).Perm foreman.claimed) : next.Orderly := by
    rw [← crew] at same
    refine orderly.assigner_moved keeps running on (by rw [same]) claimed ?_ ?_ assigns
    · intro index _
      rw [same]
    · intro index slot phase got
      rw [same] at got
      exact loaded index slot phase got
  cases move with
  | starts =>
    refine moved rfl (by rw [after]; trivial) ⟨[], ?_⟩
    simp [claimed, held?, before, after, line]
  | resumes till =>
    refine moved rfl (by rw [after]; trivial) ⟨[], ?_⟩
    simp [claimed, held?, before, after, line]
  | stops phase stopping empty =>
    refine moved rfl (by rw [after]; trivial) ⟨foreman.held?.toList, ?_⟩
    rw [claimed, claimed, held?, after, line]
    exact List.perm_append_comm
  | calls index rest going idle =>
    refine moved rfl (by rw [after]; trivial) ⟨[], ?_⟩
    simp [claimed, held?, before, after, line, idle]
  | asks index going =>
    refine moved rfl (by rw [after]; exact Engine.next_calm _) ⟨[], ?_⟩
    simp [claimed, held?, before, after, line]
  | pops index program following unended calm =>
    refine moved rfl (by rw [after]; exact calm) ⟨[], ?_⟩
    simp [claimed, held?, before, after, line]
  | receives index program task found =>
    refine moved rfl (by rw [after]; trivial) ⟨[], ?_⟩
    simp [claimed, held?, before, after, line]
  | returns index till program added nothing place =>
    refine moved rfl (by rw [after]; trivial) ?_
    rcases place with rfl | rfl
    · refine ⟨[index], ?_⟩
      simp only [claimed, held?, before, after, line, List.append_nil]
      exact List.perm_append_comm
    · refine ⟨[], ?_⟩
      simp only [claimed, held?, before, after, line, List.append_nil]
      change (foreman.idle ++ [index]).Perm ([index] ++ foreman.idle)
      exact List.perm_append_comm
  | gives index task phase vacant looks =>
    have fresh : index ∉ foreman.idle := by
      simpa using (List.nodup_cons.mp nodup).1
    have listed : next.claimed = foreman.idle := by
      simp [claimed, held?, after, line]
    refine orderly.assigner_moved keeps running on ?_ ⟨[index], ?_⟩ ?_ ?_ (by rw [after]; trivial)
    · rw [crew, List.length_set]
    · rw [listed, claimed, held?, before]
      exact List.perm_append_comm
    · intro other member
      rw [listed] at member
      rw [getElem?_moved vacant crew, if_neg]
      rintro rfl
      exact fresh member
    · intro other slot otherPhase got
      rw [getElem?_moved vacant crew] at got
      split at got
      · rename_i same
        rw [Option.some.injEq, Worker.mk.injEq] at got
        obtain ⟨_, rfl⟩ := got
        exact ⟨fun _ => looks, none, same ▸ vacant⟩
      · exact loaded other slot otherPhase got

theorem MemberMove.orderly (move : foreman.MemberMove next elapsed member milestones)
    (orderly : foreman.Orderly) : next.Orderly := by
  cases move with
  | waits member blocked same => exact same ▸ orderly
  | worker index worker moved added milestones found moves =>
    exact (moves.move.fits orderly found).orderly orderly found moves.keeps moves.assigner moves.workers
      moves.idle
  | handler index slot execution progress after found works same =>
    subst same
    exact (orderly.fits_closed found rfl rfl (.handling execution after) trivial rfl).orderly orderly
      found ⟨rfl, rfl, rfl, rfl⟩ rfl rfl (List.append_nil _).symm
  | assigner milestones running keeps move => exact move.orderly orderly keeps running

/-- A foreman that has been built has no workers yet, and has done nothing. -/
theorem build_eq {config : ForemanConfig} {engine : Engine} {registry : Registry} {measured : Bool}
    (built : build config engine registry measured = .ok foreman) :
    foreman = ⟨config, engine, registry, measured, .created, .zero, [], [], .starting⟩ := by
  simp only [build, bind, Except.bind] at built
  split at built
  · contradiction
  · simp only [pure, Except.pure, Except.ok.injEq] at built
    exact built.symm

theorem build_orderly (config : ForemanConfig) (engine : Engine) (registry : Registry)
    (measured : Bool) (built : build config engine registry measured = .ok foreman) :
    foreman.Orderly ∧ foreman.lifecycle = .created := by
  obtain rfl := build_eq built
  have nobody (index : Nat) (worker : Worker) : ([] : List Worker)[index]? ≠ some worker := by simp
  refine ⟨⟨Nat.zero_le _, List.nodup_nil, ?vacant, ?loaded, ?regular, ?stays, trivial,
    fun _ => ⟨rfl, rfl, rfl⟩, ?stopped⟩, rfl⟩
  case vacant =>
    intro on index listed
    simp [claimed, held?] at listed
  case loaded =>
    intro index task phase found
    exact absurd found (nobody index _)
  case regular =>
    intro index slot phase found
    exact absurd found (nobody index _)
  case stays =>
    intro index slot found
    exact absurd found (nobody index _)
  case stopped => simp

theorem start_orderly (orderly : foreman.Orderly) {notices : List Notice}
    (started : foreman.start = .ok (next, notices)) : next.Orderly := by
  unfold start at started
  split at started
  · contradiction
  · contradiction
  · contradiction
  · rename_i created
    obtain ⟨workers, idle, assigner⟩ := orderly.created created
    simp only [Except.ok.injEq, Prod.mk.injEq] at started
    obtain ⟨rfl, _⟩ := started
    have alike (index : Nat) (worker : Worker)
        (found : (List.replicate foreman.config.poolSize (Worker.mk none .starting))[index]? = some worker) :
        worker = ⟨none, .starting⟩ :=
      List.eq_of_mem_replicate (List.mem_of_getElem? found)
    refine ⟨?crew, ?listed, ?vacant, ?loaded, ?regular, ?stays, ?assigns, ?created, ?stopped⟩
    case crew =>
      exact Nat.le_of_eq List.length_replicate
    case listed =>
      simp [claimed, held?, idle, assigner]
    case vacant =>
      intro on index listed
      simp [claimed, held?, idle, assigner] at listed
    case loaded =>
      intro index task phase found
      have same := alike index _ found
      simp at same
    case regular =>
      intro index slot phase found
      obtain ⟨rfl, rfl⟩ := Worker.mk.inj (alike index _ found)
      trivial
    case stays =>
      intro index slot found
      have same := alike index _ found
      simp at same
    case assigns =>
      change Assigns foreman.assigner
      rw [assigner]
      trivial
    case created => simp
    case stopped => simp

theorem requestStop_orderly (orderly : foreman.Orderly) : foreman.requestStop.1.Orderly := by
  unfold requestStop
  split
  · rename_i created
    obtain ⟨workers, idle, assigner⟩ := orderly.created created
    refine { orderly with created := by simp, stopped := fun _ => ⟨Or.inl assigner, ?_⟩ }
    intro index slot phase found
    simp [workers] at found
  · exact orderly
  · exact { orderly with created := by simp, stopped := by simp }

theorem completeStop_orderly (orderly : foreman.Orderly) (closed : foreman.isOver) :
    foreman.completeStop.1.Orderly := by
  obtain ⟨gone, left⟩ := Bool.and_eq_true_iff.mp closed
  have assigns := orderly.assigns
  unfold completeStop
  split
  · refine { orderly with created := by simp, stopped := fun _ => ⟨Or.inr ?_, ?_⟩ }
    · change foreman.assigner = .ended
      cases phase : foreman.assigner with
      | ended => rfl
      | lost crash =>
        rw [phase] at assigns
        exact assigns.elim
      | _ => simp [phase, AssignerPhase.isOver] at gone
    · intro index slot phase found
      have ended := List.all_eq_true.mp left _ (List.mem_of_getElem? found)
      have regular := orderly.regular index slot phase found
      cases phase with
      | ended => rfl
      | lost crash => exact regular.elim
      | _ => contradiction
  · exact orderly

end TenantQueue.Foreman
