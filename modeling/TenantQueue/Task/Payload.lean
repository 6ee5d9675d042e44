import TenantQueue.Document
import TenantQueue.Failure

/-! Typed payloads: a document or a plain value in packed form. -/
namespace TenantQueue.Payload
open Pack

def encode (document : Document) : Bytes := document.write

def decodeAs {α : Type} (read : Value → Option α) (bytes : Bytes) : Except Failure α :=
  match (Value.read bytes).bind fun (value, _) => read value with
  | some result => .ok result
  | none => .error (.serialization .packed)

def decode : Bytes → Except Failure Document := decodeAs Document.ofValue?

def pair? : Value → Option (Int64 × String)
  | .array [number, text] => do
    let number ← number.int64?
    let text ← text.string?
    return (number, text)
  | _ => none

end TenantQueue.Payload
