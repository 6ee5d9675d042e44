import TenantQueue.Config
import TenantQueue.Task.Basic

/-! Names of the keys under which a remote store keeps a queue. Each holds the name of the
queue in braces, so that a cluster keeps all of them in one place. -/
namespace TenantQueue

structure KeyLayout where
  keyPrefix : String
  deriving DecidableEq

namespace KeyLayout

def standard : KeyLayout := ⟨Config.standardPrefix⟩

def base (layout : KeyLayout) (queue : String) : String :=
  layout.keyPrefix ++ ":\x7b" ++ queue ++ "\x7d:"

def pendingBase (layout : KeyLayout) (queue : String) : String := layout.base queue ++ "pending:"

def pending (layout : KeyLayout) (queue : String) (tenant : Tenant) : String :=
  layout.pendingBase queue ++ tenant.name

def active (layout : KeyLayout) (queue : String) : String := layout.base queue ++ "active"

def processing (layout : KeyLayout) (queue : String) (tenant : Tenant) : String :=
  layout.base queue ++ "processing:" ++ tenant.name

def payload (layout : KeyLayout) (queue : String) (fingerprint : Fingerprint) : String :=
  layout.base queue ++ "payload:" ++ fingerprint.text

end KeyLayout
end TenantQueue
