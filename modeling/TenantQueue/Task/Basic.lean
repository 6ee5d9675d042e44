import TenantQueue.Digest
import TenantQueue.Instant.Basic
import TenantQueue.Tenant

/-! Tasks, and the fingerprints that name them in the durable path. -/
namespace TenantQueue

structure Task where
  taskType : String
  tenant : Tenant
  payload : Bytes
  queuedOn : Instant
  errorCount : UInt32
  deriving DecidableEq, Inhabited

structure Fingerprint where
  text : String
  deriving DecidableEq, Inhabited

namespace Fingerprint

instance : Ord Fingerprint := ⟨compareOn fun fingerprint => Bytes.ofText fingerprint.text⟩

def empty : Fingerprint := ⟨""⟩

def isEmpty (fingerprint : Fingerprint) : Bool := fingerprint.text.isEmpty

/-- The bytes that are digested: type, tenant and payload, a zero byte between them. -/
def input (taskType : String) (tenant : Tenant) (payload : Bytes) : Bytes :=
  Bytes.ofText taskType ++ 0 :: (Bytes.ofText tenant.name ++ 0 :: payload)

def of (taskType : String) (tenant : Tenant) (payload : Bytes) : Fingerprint :=
  ⟨Bytes.hex (Digest.sha256 (input taskType tenant payload))⟩

end Fingerprint

namespace Task

/-- Neither the time nor the error count enters it. -/
def fingerprint (task : Task) : Fingerprint := Fingerprint.of task.taskType task.tenant task.payload

def description (task : Task) : String :=
  "Task[type=" ++ task.taskType ++ ", tenant=" ++ task.tenant.name ++ ", errors=" ++
    Nat.repr task.errorCount.toNat ++ "]"

end Task
end TenantQueue
