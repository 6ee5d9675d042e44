import TenantQueue.Double.Basic
import TenantQueue.Pack.Reader
import TenantQueue.Pack.Writer

/-! Structured documents: null, truth values, numbers, texts, arrays and objects. An object
lists its members by the bytes of their names, each name once. -/
namespace TenantQueue

inductive Document where
  | null
  | bool (value : Bool)
  | integer (value : Int)
  | double (value : Double)
  | text (value : String)
  | array (items : List Document)
  | object (members : List (String × Document))
  deriving Inhabited

namespace Document

/-- Enters a member by the bytes of its name, in place of one of the same name. -/
def enterMember (name : String) (value : Document) :
    List (String × Document) → List (String × Document)
  | [] => [(name, value)]
  | (first, old) :: rest =>
    match compare (Bytes.ofText name) (Bytes.ofText first) with
    | .lt => (name, value) :: (first, old) :: rest
    | .eq => (name, value) :: rest
    | .gt => (first, old) :: enterMember name value rest

/-- Of equal names the last counts. -/
def ofMembers (members : List (String × Document)) : Document :=
  .object (members.foldl (fun sorted member => enterMember member.1 member.2 sorted) [])

mutual

/-- The packed form. Doubles that are no finite number have none and are written as nil. -/
def write : Document → Bytes
  | .null => [0xc0]
  | .bool value => [if value then 0xc3 else 0xc2]
  | .integer value => Pack.writeInteger value
  | .double value => if value.isFinite then Pack.writeDouble value.bits else [0xc0]
  | .text value => Pack.writeText value
  | .array items => Pack.arrayHead items.length ++ writeItems items
  | .object members => Pack.mapHead members.length ++ writeMembers members

def writeItems : List Document → Bytes
  | [] => []
  | item :: rest => write item ++ writeItems rest

def writeMembers : List (String × Document) → Bytes
  | [] => []
  | (name, value) :: rest => Pack.writeText name ++ write value ++ writeMembers rest

end

private def finite (value : Double) : Document := if value.isFinite then .double value else .null

mutual

/-- Binary data and extensions are no documents, and names are texts in UTF-8. -/
def ofValue? : Pack.Value → Option Document
  | .nil => some .null
  | .bool value => some (.bool value)
  | .unsigned value => some (.integer value)
  | .signed value => some (.integer value)
  | .single bits => some (finite (Double.ofSingle bits))
  | .double bits => some (finite ⟨bits⟩)
  | .text bytes => (Bytes.toText? bytes).map .text
  | .array items => (ofItems? items []).map .array
  | .map entries => (ofEntries? entries []).map .object
  | .binary _ => none
  | .extension _ _ => none

def ofItems? : List Pack.Value → List Document → Option (List Document)
  | [], read => some read.reverse
  | item :: rest, read =>
    match ofValue? item with
    | none => none
    | some document => ofItems? rest (document :: read)

def ofEntries? :
    List (Pack.Value × Pack.Value) → List (String × Document) → Option (List (String × Document))
  | [], members => some members
  | (.text name, value) :: rest, members =>
    match Bytes.toText? name, ofValue? value with
    | some name, some document => ofEntries? rest (enterMember name document members)
    | _, _ => none
  | (_, _) :: _, _ => none

end

/-- The document in front of the given bytes. -/
def read? (bytes : Bytes) : Option Document := do
  let (value, _) ← Pack.Value.read bytes
  ofValue? value

end Document
end TenantQueue
