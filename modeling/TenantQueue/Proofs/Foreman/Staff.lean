import TenantQueue.Proofs.Foreman.Reports

/-! How a foreman keeps its workers in their places, whatever its members do and whenever it is started and
stopped. -/
namespace TenantQueue.Foreman
variable {σ : Type} {foreman next : Foreman}

structure Passes (foreman : Foreman) (index : Nat) (worker moved : Worker) (added : List Nat) :
    Prop where
  rests : index ∈ foreman.claimed → moved.slot = none ∧ moved.phase.isResting
  joins : added = [] ∨ added = [index] ∧ moved.slot = none ∧ moved.phase.isResting
  known : moved = ⟨none, .waiting⟩ → worker = ⟨none, .waiting⟩ ∨ added = [index]

theorem Staffed.passes_busy (staffed : foreman.Staffed) {index : Nat} {worker moved : Worker}
    (found : foreman.workers[index]? = some worker)
    (busy : worker.slot.isSome ∨ worker.phase.isResting = false) (leaves : moved ≠ ⟨none, .waiting⟩) :
    foreman.Passes index worker moved [] where
  rests listed := by
    obtain ⟨empty, resting⟩ := staffed.rests_at listed found
    rw [empty, resting] at busy
    simp at busy
  joins := Or.inl rfl
  known same := absurd same leaves

theorem WorkerMove.passes {index : Nat} {worker moved : Worker} {added : List Nat}
    {milestones : List Milestone}
    (move : foreman.WorkerMove index worker moved added milestones) (orderly : foreman.Orderly)
    (staffed : foreman.Staffed) (found : foreman.workers[index]? = some worker) :
    foreman.Passes index worker moved added := by
  cases move with
  | joins slot on =>
    have closed := orderly.empty found rfl
    subst closed
    exact ⟨fun _ => ⟨rfl, rfl⟩, Or.inr ⟨rfl, rfl, rfl⟩, fun _ => Or.inr rfl⟩
  | leaves => exact ⟨fun _ => ⟨rfl, rfl⟩, Or.inl rfl, fun _ => Or.inl rfl⟩
  | ends closed => exact ⟨fun _ => ⟨rfl, rfl⟩, Or.inl rfl, by simp⟩
  | takes task since leaving handler looks handled =>
    exact staffed.passes_busy found (Or.inl rfl) (by simp)
  | refuses task since leaving looks unhandled =>
    exact staffed.passes_busy found (Or.inl rfl) (by simp)
  | returns slot execution result program phase silent back =>
    exact staffed.passes_busy found (Or.inr rfl) (by rcases back with rfl | rfl <;> simp)
  | _ => exact staffed.passes_busy found (Or.inr rfl) (by simp)

theorem Staffed.worker_moved (staffed : foreman.Staffed) {index : Nat} {worker moved : Worker}
    {added : List Nat} (found : foreman.workers[index]? = some worker)
    (passes : foreman.Passes index worker moved added) (keeps : foreman.Keeps next)
    (assigner : next.assigner = foreman.assigner)
    (workers : next.workers = foreman.workers.set index moved)
    (idle : next.idle = foreman.idle ++ added)
    (busy : next.counters.busy + worker.load = foreman.counters.busy + moved.load)
    (stays : foreman.lifecycle = .started → moved.phase.isStaying) : next.Staffed := by
  have held : next.held? = foreman.held? := by rw [held?, assigner, held?]
  have claimed : next.claimed = foreman.claimed ++ added := by
    rw [Foreman.claimed, held, idle, Foreman.claimed, List.append_assoc]
  have look := getElem?_moved found workers
  refine ⟨?rests, ?full, ?assigns, ?stays, ?known, ?busy⟩
  case rests =>
    intro other listed
    rw [claimed] at listed
    rw [look]
    by_cases same : other = index
    · subst same
      rw [if_pos rfl]
      have resting : moved.slot = none ∧ moved.phase.isResting := by
        rcases List.mem_append.mp listed with before | new
        · exact passes.rests before
        · rcases passes.joins with rfl | ⟨_, resting⟩
          · simp at new
          · exact resting
      obtain ⟨slot, phase⟩ := moved
      obtain ⟨rfl, rests⟩ := resting
      exact ⟨phase, rfl, rests⟩
    · rw [if_neg same]
      rcases List.mem_append.mp listed with before | new
      · exact staffed.rests other before
      · rcases passes.joins with rfl | ⟨rfl, _⟩
        · simp at new
        · exact absurd (List.mem_singleton.mp new) same
  case full =>
    intro started
    rw [workers, List.length_set, keeps.config]
    exact staffed.full (keeps.lifecycle ▸ started)
  case assigns =>
    intro started
    rw [assigner]
    exact staffed.assigns (keeps.lifecycle ▸ started)
  case stays =>
    intro started other slot phase got
    rw [keeps.lifecycle] at started
    rw [look] at got
    split at got
    · have staying := stays started
      rw [Option.some.inj got] at staying
      exact staying
    · exact staffed.stays started other slot phase got
  case known =>
    intro started other got
    rw [keeps.lifecycle] at started
    rw [claimed]
    rw [look] at got
    split at got
    · rename_i same
      subst same
      rcases passes.known (Option.some.inj got) with rfl | rfl
      · exact List.mem_append_left _ (staffed.known started other found)
      · exact List.mem_append_right _ (List.mem_singleton_self other)
    · exact List.mem_append_left _ (staffed.known started other got)
  case busy =>
    have counted := executing_set found workers
    rw [staffed.busy] at busy
    omega

/-- Where there is room in the line, the worker for whom there is no task goes back to it. -/
theorem advanceAssigner_returns (backend : Backend σ) (moment : Moment) (state : σ) {index till : Nat}
    {program : Program (Option Task)} (before : foreman.assigner = .popping index program)
    (after : (foreman.advanceAssigner backend moment state).1.assigner = .pausing till)
    (room : foreman.idle.length < foreman.config.poolSize) :
    (foreman.advanceAssigner backend moment state).1.idle = foreman.idle ++ [index] := by
  have returned := (returnIdle_room index moment.elapsed room).1
  simp only [advanceAssigner, before] at after ⊢
  cases ended : program.outcome? with
  | none => simp [ended] at after
  | some outcome =>
    cases outcome with
    | crashed crash => simp [ended] at after
    | failed failure => exact returned
    | ok found =>
      cases found with
      | none => exact returned
      | some task => simp [ended] at after

/-- Where the workers stay as they are, those that were claimed have to stay so only while the foreman is
started. -/
theorem Staffed.same_workers (staffed : foreman.Staffed) (config : next.config = foreman.config)
    (counters : next.counters = foreman.counters) (workers : next.workers = foreman.workers)
    (fewer : next.claimed ⊆ foreman.claimed)
    (started : next.lifecycle = .started → foreman.lifecycle = .started ∧
      foreman.claimed ⊆ next.claimed ∧ next.assigner.isOver = false) : next.Staffed := by
  refine ⟨?rests, ?full, ?assigns, ?stays, ?known, ?busy⟩
  case rests =>
    intro index listed
    rw [workers]
    exact staffed.rests index (fewer listed)
  case full =>
    intro going
    rw [workers, config]
    exact staffed.full (started going).1
  case assigns => exact fun going => (started going).2.2
  case stays =>
    intro going
    rw [workers]
    exact staffed.stays (started going).1
  case known =>
    intro going index found
    rw [workers] at found
    exact (started going).2.1 (staffed.known (started going).1 index found)
  case busy =>
    rw [counters, executing, workers]
    exact staffed.busy

theorem Staffed.assigner_moved (staffed : foreman.Staffed) (orderly : foreman.Orderly)
    (keeps : foreman.Keeps next) (counters : next.counters = foreman.counters) {milestones : List Milestone}
    (move : foreman.AssignerMove foreman.assigner next.assigner next.idle next.workers milestones)
    (returns : ∀ index program till, foreman.assigner = .popping index program →
      next.assigner = .pausing till → next.idle = foreman.idle ++ [index]) : next.Staffed := by
  have nodup := orderly.listed
  simp only [claimed, held?] at nodup
  generalize before : foreman.assigner = phase at move nodup returns
  generalize after : next.assigner = phaseAfter at move returns
  generalize line : next.idle = lineAfter at move returns
  generalize crew : next.workers = crewAfter at move
  -- All but one leave the workers as they are, and most claim those that were claimed before.
  have still (same : crewAfter = foreman.workers) (on : next.assigner.isOver = false)
      (listed : ∀ index, index ∈ next.claimed ↔ index ∈ foreman.claimed) : next.Staffed :=
    staffed.same_workers keeps.config counters (crew.trans same) (fun index => (listed index).mp)
      fun going => ⟨keeps.lifecycle ▸ going, fun index => (listed index).mpr, on⟩
  cases move with
  | starts =>
    exact still rfl (by simp [after, AssignerPhase.isOver])
      (by simp [claimed, held?, before, after, line])
  | resumes till =>
    exact still rfl (by simp [after, AssignerPhase.isOver])
      (by simp [claimed, held?, before, after, line])
  | stops phase stopping empty =>
    refine staffed.same_workers keeps.config counters crew ?_ ?_
    · simp [claimed, held?, after, line]
    · intro going
      rw [keeps.lifecycle] at going
      simp [isStopping, going] at stopping
  | calls index rest going idle =>
    exact still rfl (by simp [after, AssignerPhase.isOver])
      (by simp [claimed, held?, before, after, line, idle])
  | asks index going =>
    exact still rfl (by simp [after, AssignerPhase.isOver])
      (by simp [claimed, held?, before, after, line])
  | pops index program following unended calm =>
    exact still rfl (by simp [after, AssignerPhase.isOver])
      (by simp [claimed, held?, before, after, line])
  | receives index program task found =>
    exact still rfl (by simp [after, AssignerPhase.isOver])
      (by simp [claimed, held?, before, after, line])
  | returns index till program added nothing place =>
    have back : foreman.idle ++ added = foreman.idle ++ [index] := returns index program till rfl rfl
    exact still rfl (by simp [after, AssignerPhase.isOver])
      (by simp [claimed, held?, before, after, line, back, or_comm])
  | gives index task phase vacant looks =>
    have fresh : index ∉ foreman.idle := by
      simpa using (List.nodup_cons.mp nodup).1
    have listed : next.claimed = foreman.idle := by
      simp [claimed, held?, after, line]
    have look := getElem?_moved vacant crew
    refine ⟨?rests, ?full, ?assigns, ?stays, ?known, ?busy⟩
    case rests =>
      intro other member
      rw [listed] at member
      rw [look, if_neg]
      · exact staffed.rests other (mem_claimed.mpr (Or.inr member))
      · rintro rfl
        exact fresh member
    case full =>
      rw [keeps.lifecycle, keeps.config, crew, List.length_set]
      exact staffed.full
    case assigns =>
      intro _
      rw [after]
      rfl
    case stays =>
      rw [keeps.lifecycle]
      intro started other slot otherPhase got
      rw [look] at got
      split at got
      · rw [Option.some.injEq, Worker.mk.injEq] at got
        exact got.2 ▸ staffed.stays started index none phase vacant
      · exact staffed.stays started other slot otherPhase got
    case known =>
      rw [keeps.lifecycle, listed]
      intro started other got
      rw [look] at got
      split at got
      · simp at got
      · rename_i differ
        rcases mem_claimed.mp (staffed.known started other got) with held | member
        · simp only [Stands, held?, before, Option.some.injEq] at held
          exact absurd held.symm differ
        · exact member
    case busy =>
      rw [counters, staffed.busy]
      exact Nat.add_right_cancel (executing_set vacant crew).symm

theorem AssignerMove.phases {before after : AssignerPhase} {idle : List Nat} {workers : List Worker}
    {milestones : List Milestone} (move : foreman.AssignerMove before after idle workers milestones) :
    ∀ worker ∈ workers, ∃ other ∈ foreman.workers, other.phase = worker.phase := by
  intro worker held
  cases move with
  | gives index task phase vacant looks =>
    rcases List.mem_or_eq_of_mem_set held with present | rfl
    · exact ⟨worker, present, rfl⟩
    · exact ⟨_, List.mem_of_getElem? vacant, rfl⟩
  | _ => exact ⟨worker, held, rfl⟩

/-- Its members keep a foreman staffed, and a report that one of them makes of the busy workers is right
when it is made. What a handler reports is its own. -/
theorem Staffed.advance (staffed : foreman.Staffed) (discreet : foreman.Discreet)
    (orderly : foreman.Orderly) (backend : Backend σ) (steady : backend.Steady) (moment : Moment)
    (member : Member) (state : σ) :
    (foreman.advance backend moment member state).1.Staffed ∧
      (foreman.advance backend moment member state).1.Discreet ∧
      ((∀ index, member ≠ .handler index) →
        ∀ notice ∈ (foreman.advance backend moment member state).2.1, notice.countsWorkers →
          notice ∈ (foreman.advance backend moment member state).1.occupancy) := by
  cases free : foreman.canAdvance moment.elapsed member with
  | false =>
    simp only [Foreman.advance, free, Bool.false_eq_true, if_false]
    exact ⟨staffed, discreet, fun _ => List.forall_mem_nil _⟩
  | true =>
    cases member with
    | worker index =>
      cases found : foreman.workers[index]? with
      | none => simp [canAdvance, found] at free
      | some worker =>
        have able : foreman.workerCanAdvance worker := by simpa [canAdvance, found] using free
        simp only [Foreman.advance, free, found, if_true]
        obtain ⟨moved, added, moves⟩ :=
          advanceWorker_moves backend steady moment foreman index worker state orderly found able
        obtain ⟨other, serves⟩ :=
          advanceWorker_serves backend moment state orderly staffed discreet found able
        have same : other = moved := by
          have look := getElem?_moved found moves.workers index
          rw [getElem?_moved found serves.workers index, if_pos rfl, if_pos rfl] at look
          exact Option.some.inj look
        subst same
        have passes := moves.move.passes orderly staffed found
        refine ⟨?_, ?_, fun _ => serves.reports⟩
        · refine staffed.worker_moved found passes moves.keeps moves.assigner moves.workers moves.idle
            serves.busy ?_
          intro started
          exact serves.stays (by simp [isStopping, started]) (staffed.assigns started)
            (staffed.stays started index worker.slot worker.phase found)
        · refine ⟨?_, moves.assigner ▸ discreet.assigner⟩
          intro worker held
          rw [serves.workers] at held
          rcases List.mem_or_eq_of_mem_set held with before | rfl
          · exact discreet.workers worker before
          · exact serves.discreet
    | handler index =>
      cases found : foreman.workers[index]? with
      | none => simp [canAdvance, found] at free
      | some worker =>
        obtain ⟨slot, phase⟩ := worker
        cases phase with
        | handling execution progress =>
          simp only [Foreman.advance, free, found, if_true, advanceHandler]
          refine ⟨?_, ⟨?_, discreet.assigner⟩, fun own => absurd rfl (own index)⟩
          · exact staffed.worker_moved found (staffed.passes_busy found (Or.inr rfl) (by simp))
              ⟨rfl, rfl, rfl, rfl⟩ rfl rfl (List.append_nil _).symm rfl
              fun started => staffed.stays started index slot (.handling execution progress) found
          · intro worker held
            rcases List.mem_or_eq_of_mem_set held with before | rfl
            · exact discreet.workers worker before
            · trivial
        | _ => simp [canAdvance, found] at free
    | assigner =>
      obtain ⟨_, ready⟩ := Bool.and_eq_true_iff.mp free
      simp only [Foreman.advance, free, if_true]
      obtain ⟨keeps, move⟩ := advanceAssigner_moves backend steady moment foreman state orderly ready
      have directs := advanceAssigner_directs backend moment state orderly discreet.assigner
      refine ⟨?_, ⟨?_, directs.discreet⟩, ?_⟩
      · refine staffed.assigner_moved orderly keeps directs.counters move ?_
        intro index program till before after
        have held : foreman.held? = some index := by simp only [held?, before]
        exact advanceAssigner_returns backend moment state before after (staffed.room orderly held)
      · intro worker held
        obtain ⟨other, present, same⟩ := move.phases worker held
        exact same ▸ discreet.workers other present
      · intro _ notice given counts
        rw [directs.silent notice given] at counts
        contradiction

theorem build_staffed (config : ForemanConfig) (engine : Engine) (registry : Registry)
    (measured : Bool) (built : build config engine registry measured = .ok foreman) :
    foreman.Staffed ∧ foreman.Discreet ∧ foreman.config = config := by
  obtain rfl := build_eq built
  refine ⟨⟨?_, by simp, by simp, by simp, by simp, rfl⟩, ⟨List.forall_mem_nil _, trivial⟩, rfl⟩
  intro index listed
  simp [claimed, held?] at listed

/-- A foreman that is started gets all its workers, and reports that none of them is busy. -/
theorem start_staffed (staffed : foreman.Staffed) (orderly : foreman.Orderly) {notices : List Notice}
    (started : foreman.start = .ok (next, notices)) :
    next.Staffed ∧ next.Discreet ∧
      ∀ notice ∈ notices, notice.countsWorkers → notice ∈ next.occupancy := by
  unfold start at started
  split at started
  · contradiction
  · contradiction
  · contradiction
  · rename_i created
    obtain ⟨workers, idle, assigner⟩ := orderly.created created
    have counted := staffed.busy
    rw [executing, workers, List.countP_nil] at counted
    simp only [Except.ok.injEq, Prod.mk.injEq] at started
    obtain ⟨rfl, rfl⟩ := started
    have alike (worker : Worker)
        (held : worker ∈ List.replicate foreman.config.poolSize (Worker.mk none .starting)) :
        worker = ⟨none, .starting⟩ := List.eq_of_mem_replicate held
    refine ⟨⟨?rests, ?full, ?assigns, ?stays, ?known, ?busy⟩, ⟨?discreet, ?assigner⟩, ?reports⟩
    case rests =>
      intro index listed
      simp [claimed, held?, idle, assigner] at listed
    case full => exact fun _ => List.length_replicate
    case assigns =>
      intro _
      simp [assigner, AssignerPhase.isOver]
    case stays =>
      intro _ index slot phase found
      obtain ⟨rfl, rfl⟩ := Worker.mk.inj (alike _ (List.mem_of_getElem? found))
      rfl
    case known =>
      intro _ index found
      have same := alike _ (List.mem_of_getElem? found)
      simp at same
    case busy =>
      rw [executing, List.countP_eq_zero.mpr]
      · exact counted
      · intro worker held
        rw [alike worker held]
        simp [WorkerPhase.isExecuting]
    case discreet =>
      intro worker held
      rw [alike worker held]
      trivial
    case assigner =>
      change foreman.assigner.Discreet
      rw [assigner]
      trivial
    case reports =>
      intro notice given counts
      rcases List.mem_cons.mp given with rfl | given
      · contradiction
      · exact given

theorem Staffed.not_started (staffed : foreman.Staffed) (lifecycle : Lifecycle)
    (differs : lifecycle ≠ .started) : ({ foreman with lifecycle } : Foreman).Staffed :=
  staffed.same_workers rfl rfl rfl (List.Subset.refl foreman.claimed)
    fun started => absurd started differs

theorem requestStop_staffed (staffed : foreman.Staffed) (discreet : foreman.Discreet) :
    foreman.requestStop.1.Staffed ∧ foreman.requestStop.1.Discreet ∧
      ∀ notice ∈ foreman.requestStop.2, notice.countsWorkers = false := by
  unfold requestStop
  split
  · exact ⟨staffed.not_started .stopped (by simp), ⟨discreet.workers, discreet.assigner⟩,
      List.forall_mem_nil _⟩
  · exact ⟨staffed, discreet, List.forall_mem_nil _⟩
  · exact ⟨staffed.not_started .stopping (by simp), ⟨discreet.workers, discreet.assigner⟩,
      by simp [Notice.countsWorkers]⟩

theorem completeStop_staffed (staffed : foreman.Staffed) (discreet : foreman.Discreet) :
    foreman.completeStop.1.Staffed ∧ foreman.completeStop.1.Discreet ∧
      ∀ notice ∈ foreman.completeStop.2, notice.countsWorkers = false := by
  unfold completeStop
  split
  · refine ⟨staffed.not_started .stopped (by simp), ⟨discreet.workers, discreet.assigner⟩, ?_⟩
    intro notice given
    rcases List.mem_append.mp given with lost | told
    · obtain ⟨message, _, rfl⟩ := List.mem_map.mp lost
      rfl
    · rw [List.mem_singleton.mp told]
      rfl
  · exact ⟨staffed, discreet, List.forall_mem_nil _⟩

end TenantQueue.Foreman
