import TenantQueue.Command.Basic

/-! Commands as words of a command line. Options may stand before, between and behind the other
words, and two dashes end them. -/
namespace TenantQueue

inductive UsageError where
  | missingRequired
  | unknownArgument
  | valueValidation
  | missingValue
  | tooManyValues
  | argumentConflict
  | unknownCommand
  | displayHelp
  deriving DecidableEq

namespace UsageError

def message : UsageError → String
  | missingRequired => "a required argument is missing"
  | unknownArgument => "there is an argument that the command does not take"
  | valueValidation => "an argument has a value that it cannot have"
  | missingValue => "an option stands without its value"
  | tooManyValues => "an option stands with a value that it does not take"
  | argumentConflict => "an option stands more than once"
  | unknownCommand => "the commands are size, tenants, push and sweep"
  | displayHelp =>
    "size QUEUE | tenants QUEUE | push QUEUE TYPE TENANT PAYLOAD [--priority high|default|low] | " ++
      "sweep QUEUE... [--watch SECONDS]"

end UsageError

/-- The one option that a command takes, and how many other words. Both are checked one by one. -/
structure Grammar where
  option : Option String
  checkOption : String → Bool
  /-- Whether a word may stand at a place, `none` where no word may. -/
  checkWord : Nat → Option (String → Bool)
  required : Nat

/-- The words read so far. The last one is checked when the next is read. -/
structure Reading where
  words : List String
  option : Option String
  pending : Option (Bool × Option String)

namespace Reading

def empty : Reading := ⟨[], none, none⟩

/-- Checks what was read last and keeps it. -/
def settle (grammar : Grammar) (reading : Reading) : Except UsageError Reading :=
  match reading.pending with
  | none => .ok reading
  | some (true, none) => .error .missingValue
  | some (true, some value) =>
    if reading.option.isSome then .error .argumentConflict
    else if grammar.checkOption value then
      .ok { reading with option := some value, pending := none }
    else .error .valueValidation
  | some (false, none) => .ok { reading with pending := none }
  | some (false, some word) =>
    match grammar.checkWord reading.words.length with
    | none => .error .unknownArgument
    | some check =>
      if check word then .ok { reading with words := reading.words ++ [word], pending := none }
      else .error .valueValidation

def count (reading : Reading) : Nat :=
  match reading.pending with
  | some (false, some _) => reading.words.length + 1
  | _ => reading.words.length

def enterWord (grammar : Grammar) (reading : Reading) (word : String) :
    Except UsageError Reading := do
  if (grammar.checkWord reading.count).isNone then .error .unknownArgument
  else
    let settled ← reading.settle grammar
    return { settled with pending := some (false, some word) }

end Reading

namespace Grammar

private def cutEquals : List Char → List Char × Option (List Char)
  | [] => ([], none)
  | '=' :: value => ([], some value)
  | character :: rest =>
    let (name, value) := cutEquals rest
    (character :: name, value)

def enterLong (grammar : Grammar) (reading : Reading) (text : List Char) :
    Except UsageError Reading :=
  let (name, value) := cutEquals text
  let name := String.ofList name
  if name = "help" then
    if value.isSome then .error .tooManyValues
    else do
      let _ ← reading.settle grammar
      .error .displayHelp
  else if some name = grammar.option then do
    let settled ← reading.settle grammar
    match value with
    | some value =>
      Reading.settle grammar { settled with pending := some (true, some (String.ofList value)) }
    | none => return { settled with pending := some (true, none) }
  else .error .unknownArgument

/-- Reads the words, those behind two dashes as they are. -/
def readWords (grammar : Grammar) : Bool → Reading → List String → Except UsageError Reading
  | _, reading, [] => reading.settle grammar
  | true, reading, word :: rest => do
    let next ← reading.enterWord grammar word
    readWords grammar true next rest
  | false, reading, word :: rest =>
    match word.toList with
    | ['-', '-'] => readWords grammar true reading rest
    | '-' :: '-' :: text => do
      let next ← grammar.enterLong reading text
      readWords grammar false next rest
    | '-' :: 'h' :: _ => do
      let _ ← reading.settle grammar
      .error .displayHelp
    | '-' :: _ :: _ => .error .unknownArgument
    | _ =>
      if reading.pending = some (true, none) then
        readWords grammar false { reading with pending := some (true, some word) } rest
      else do
        let next ← reading.enterWord grammar word
        readWords grammar false next rest

def read (grammar : Grammar) (words : List String) : Except UsageError Reading := do
  let reading ← grammar.readWords false .empty words
  if reading.words.length < grammar.required then .error .missingRequired else .ok reading

end Grammar

namespace Command

private def isPriority (name : String) : Bool := (Priority.ofName name).toOption.isSome

def pushGrammar : Grammar where
  option := some "priority"
  checkOption := isPriority
  checkWord
    | 2 => some fun word => (Tenant.ofName? word).isSome
    | place => if place < 4 then some fun _ => true else none
  required := 4

def queueGrammar : Grammar where
  option := none
  checkOption _ := true
  checkWord place := if place = 0 then some fun _ => true else none
  required := 1

/-- Decimal digits after an optional plus sign, within 64 bits. -/
private def seconds? (word : String) : Option Nat :=
  let digits := match word.toList with
    | '+' :: digits => digits
    | digits => digits
  let value := digits.foldl (fun value digit => value * 10 + (digit.toNat - 48)) 0
  if digits.isEmpty || !digits.all Char.isDigit || 0x10000000000000000 ≤ value then none else some value

def sweepGrammar : Grammar where
  option := some "watch"
  checkOption word := (seconds? word).isSome
  checkWord _ := some fun _ => true
  required := 1

def pushOfWords (words : List String) : Except UsageError PushArguments := do
  let reading ← pushGrammar.read words
  match reading.words with
  | [queue, taskType, tenantName, payload] =>
    match Tenant.ofName? tenantName, Priority.ofName (reading.option.getD Priority.normal.name) with
    | some tenant, .ok priority => .ok ⟨queue, taskType, tenant, payload, priority⟩
    | _, _ => .error .valueValidation
  | _ => .error .missingRequired

def ofWords : List String → Except UsageError Command
  | "size" :: words => do
    let reading ← queueGrammar.read words
    return .size (reading.words.headD "")
  | "tenants" :: words => do
    let reading ← queueGrammar.read words
    return .tenants (reading.words.headD "")
  | "push" :: words => do
    let arguments ← pushOfWords words
    return .push arguments
  | "sweep" :: words => do
    let reading ← sweepGrammar.read words
    return .sweep reading.words
      (reading.option.bind seconds?)
  | "--help" :: _ => .error .displayHelp
  | "-h" :: _ => .error .displayHelp
  | [] => .error .missingRequired
  | _ => .error .unknownCommand

end Command
end TenantQueue
