import TenantQueue.ScoredSet
import TenantQueue.Store.Call

/-! A store in memory. Each queue has a set of pending records for each tenant, a registry of
the tenants' tasks in flight, a set of processing entries for each tenant, and the records
kept for those entries. -/
namespace TenantQueue

instance : Add Double := ⟨Double.add⟩

instance : OfNat Double 0 := ⟨Double.zero⟩

/-- One queue. The registry holds the names of tenants, by their tasks in flight and at equal
counts by name, so that tenant 10 comes before tenant 9. A count is an integer here and a double
where scores are doubles; the two agree below 2^53. -/
structure QueueState where
  pending : Table Tenant (ScoredSet Double Bytes)
  registry : ScoredSet Int String
  processing : Table Tenant (ScoredSet Double Fingerprint)
  payloads : Table Fingerprint Bytes

namespace QueueState

def empty : QueueState := ⟨Table.empty, ScoredSet.empty, Table.empty, Table.empty⟩

instance : Inhabited QueueState := ⟨empty⟩

/-- A set under its key, or none in its place when it is empty. -/
def keepNonempty {κ σ μ : Type} [DecidableEq κ] (table : Table κ (ScoredSet σ μ)) (key : κ)
    (set : ScoredSet σ μ) : Table κ (ScoredSet σ μ) :=
  if set.isEmpty then table.erase key else table.set key set

def pendingOf (state : QueueState) (tenant : Tenant) : ScoredSet Double Bytes :=
  (state.pending.get? tenant).getD ScoredSet.empty

def processingOf (state : QueueState) (tenant : Tenant) : ScoredSet Double Fingerprint :=
  (state.processing.get? tenant).getD ScoredSet.empty

def inFlight (state : QueueState) (tenant : Tenant) : Option Int :=
  state.registry.score? tenant.name

def registered (member : String) : Except Failure Tenant :=
  match Tenant.ofName? member with
  | some tenant => .ok tenant
  | none => .error (.store ("invalid tenant in active registry: " ++ member))

/-- Enters a record and registers its tenant, if it is not, with no task in flight. -/
def push (state : QueueState) (tenant : Tenant) (record : Bytes) (score : Double) : QueueState :=
  { state with
    pending := state.pending.set tenant ((state.pendingOf tenant).insert record score)
    registry := (state.registry.insertIfNew tenant.name 0).2 }

/-- Takes the first record of a tenant whose name comes first in the registry, and counts it as
in flight. A tenant without records leaves the registry. -/
def popFrom (state : QueueState) (member : String) (others : ScoredSet Int String)
    (tenant : Tenant) : PopOutcome × QueueState :=
  match (state.pendingOf tenant).popFirst? with
  | some (record, rest) =>
    (.popped tenant record,
      { state with
        pending := keepNonempty state.pending tenant rest
        registry := (state.registry.increase member 1).2 })
  | none =>
    (.drained tenant,
      { state with
        pending := state.pending.erase tenant
        registry := others })

def pop (state : QueueState) : Except Failure (PopOutcome × QueueState) :=
  match state.registry.popFirst? with
  | none => .ok (.empty, state)
  | some (member, others) => do
    let tenant ← registered member
    return state.popFrom member others tenant

def size (state : QueueState) : Except Failure Nat :=
  state.registry.members.foldlM (fun total member => do
    let tenant ← registered member
    return total + (state.pendingOf tenant).size) 0

/-- Counts one task less in flight, and registers a tenant that is not. A count below zero is
put back to zero. -/
def release (state : QueueState) (tenant : Tenant) : QueueState :=
  let (count, registry) := state.registry.increase tenant.name (-1)
  { state with registry := if count < 0 then registry.insert tenant.name 0 else registry }

def activeTenants (state : QueueState) : Except Failure (List (Tenant × Int)) :=
  state.registry.toList.mapM fun entry => do
    let tenant ← registered entry.2
    return (tenant, entry.1)

/-- An entry already present keeps its deadline. -/
def addProcessing (state : QueueState) (tenant : Tenant) (fingerprint : Fingerprint)
    (deadline : Double) : Bool × QueueState :=
  let (added, entries) := (state.processingOf tenant).insertIfNew fingerprint deadline
  (added, { state with processing := state.processing.set tenant entries })

def removeProcessing (state : QueueState) (tenant : Tenant) (fingerprint : Fingerprint) :
    QueueState :=
  { state with
    processing := keepNonempty state.processing tenant
      ((state.processingOf tenant).erase fingerprint) }

/-- The entries from the front while their deadlines have come. -/
def expiredProcessing (state : QueueState) (tenant : Tenant) (now : Double) : List Fingerprint :=
  (state.processingOf tenant).takeWhile fun deadline => deadline.le now

end QueueState

structure MemoryStore where
  queues : Table String QueueState

namespace MemoryStore

def empty : MemoryStore := ⟨Table.empty⟩

instance : Inhabited MemoryStore := ⟨empty⟩

def queue (store : MemoryStore) (name : String) : QueueState :=
  (store.queues.get? name).getD QueueState.empty

def setQueue (store : MemoryStore) (name : String) (state : QueueState) : MemoryStore :=
  ⟨store.queues.set name state⟩

def update (store : MemoryStore) (name : String) (change : QueueState → QueueState) :
    MemoryStore :=
  store.setQueue name (change (store.queue name))

/-- A queue never used stays so. -/
def updatePresent (store : MemoryStore) (name : String) (change : QueueState → QueueState) :
    MemoryStore :=
  match store.queues.get? name with
  | none => store
  | some state => store.setQueue name (change state)

/-- How a call ends and the store after it. A call that fails leaves the store as it is. -/
def perform (store : MemoryStore) : (call : Call) → Except Failure call.Reply × MemoryStore
  | .push queue tenant record score =>
    (.ok (), store.update queue fun state => state.push tenant record score)
  | .pop queue =>
    match (store.queue queue).pop with
    | .ok (.empty, _) => (.ok .empty, store)
    | .ok (outcome, state) => (.ok outcome, store.setQueue queue state)
    | .error failure => (.error failure, store)
  | .size queue => ((store.queue queue).size, store)
  | .release queue tenant => (.ok (), store.update queue fun state => state.release tenant)
  | .activeTenants queue => ((store.queue queue).activeTenants, store)
  | .addProcessing queue tenant fingerprint deadline =>
    let (added, state) := (store.queue queue).addProcessing tenant fingerprint deadline
    (.ok added, store.setQueue queue state)
  | .removeProcessing queue tenant fingerprint =>
    (.ok (), store.updatePresent queue fun state => state.removeProcessing tenant fingerprint)
  | .expiredProcessing queue tenant now =>
    (.ok ((store.queue queue).expiredProcessing tenant now), store)
  | .setPayload queue fingerprint record =>
    (.ok (), store.update queue fun state =>
      { state with payloads := state.payloads.set fingerprint record })
  | .getPayload queue fingerprint => (.ok ((store.queue queue).payloads.get? fingerprint), store)
  | .deletePayload queue fingerprint =>
    (.ok (), store.updatePresent queue fun state =>
      { state with payloads := state.payloads.erase fingerprint })

end MemoryStore
end TenantQueue
