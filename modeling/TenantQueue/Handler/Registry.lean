import TenantQueue.Handler.Job

/-! Handlers by the type of the tasks they take. -/
namespace TenantQueue

structure Registry where
  handlers : Table String Handler

namespace Registry

def empty : Registry := ⟨Table.empty⟩

instance : Inhabited Registry := ⟨empty⟩

def get? (registry : Registry) (taskType : String) : Option Handler :=
  registry.handlers.get? taskType

def contains (registry : Registry) (taskType : String) : Bool := registry.handlers.contains taskType

def size (registry : Registry) : Nat := registry.handlers.size

/-- A handler takes the place of one for the same type, which is worth a warning. -/
def register (registry : Registry) (taskType : String) (handler : Handler) :
    Registry × List Notice :=
  (⟨registry.handlers.set taskType handler⟩,
    if registry.contains taskType then
      [.log .warn ("Handler for task type " ++ taskType ++ " replaced")]
    else [])

def taskTypes (registry : Registry) : List String :=
  registry.handlers.keys.mergeSort fun first second =>
    (compare (Bytes.ofText first) (Bytes.ofText second)).isLE

def shown (registry : Registry) : String :=
  "Registry \x7b task_types: " ++ Text.bracketed (registry.taskTypes.map Text.quoted) ++ " \x7d"

end Registry
end TenantQueue
