import TenantQueue.Proofs.Pack.RoundTrip
import TenantQueue.Task.Payload

/-! Documents in packed form. What is written of a document is read back as the same document, unless
it nests deeper than a reader goes. -/
namespace TenantQueue

namespace Pack

theorem readMany_limited {α β : Type} (read : Reader β) (write : α → Bytes) (value : α → β)
    (fits : α → Prop) [DecidablePred fits] (items : List α) (rest : Bytes)
    (each : ∀ item ∈ items, ∀ rest,
      read (write item ++ rest) = if fits item then some (value item, rest) else none) :
    readMany read items.length [] (items.flatMap write ++ rest) =
      if ∀ item ∈ items, fits item then some (items.map value, rest) else none := by
  split
  · rename_i all
    refine readMany_flatMap read write value items [] rest fun item member rest => ?_
    rw [each item member rest, if_pos (all item member)]
  · rename_i some_not
    obtain ⟨item, bad⟩ := Classical.not_forall.mp some_not
    obtain ⟨member, bad⟩ := Classical.not_imp.mp bad
    refine readMany_flatMap_none read write value items [] rest (fun other memberToo => ?_)
      ⟨item, member, fun rest => by rw [each item member rest, if_neg bad]⟩
    by_cases good : fits other
    · exact Or.inl fun rest => by rw [each other memberToo rest, if_pos good]
    · exact Or.inr fun rest => by rw [each other memberToo rest, if_neg good]

theorem Announces.not_read {bytes : Bytes} {head : Nat → Nat → Head} {count : Nat}
    (announced : Announces bytes head count)
    (nests : ∀ lengthWidth given input, readBody none (head lengthWidth given) input = none)
    (body : Bytes) : Value.readWithin 0 (bytes ++ body) = none := by
  obtain ⟨first, more, lengthWidth, given, rfl, announces, _⟩ := announced
  rw [List.cons_append, Value.readWithin, announces, nests]

end Pack

namespace Document
open Pack

mutual

def depth : Document → Nat
  | .null | .bool _ | .integer _ | .double _ | .text _ => 0
  | .array items => depthOfItems items + 1
  | .object members => depthOfMembers members + 1

def depthOfItems : List Document → Nat
  | [] => 0
  | item :: rest => max (depth item) (depthOfItems rest)

def depthOfMembers : List (String × Document) → Nat
  | [] => 0
  | (_, value) :: rest => max (depth value) (depthOfMembers rest)

end

mutual

def toValue : Document → Value
  | .null => .nil
  | .bool value => .bool value
  | .integer value => if 0 ≤ value then .unsigned value.toNat else .signed value
  | .double value => if value.isFinite then .double value.bits else .nil
  | .text value => .text (Bytes.ofText value)
  | .array items => .array (toItems items)
  | .object members => .map (toEntries members)

def toItems : List Document → List Value
  | [] => []
  | item :: rest => toValue item :: toItems rest

def toEntries : List (String × Document) → List (Value × Value)
  | [] => []
  | (name, value) :: rest => (.text (Bytes.ofText name), toValue value) :: toEntries rest

end

def Sorted (members : List (String × Document)) : Prop :=
  members.Pairwise fun first second =>
    compare (Bytes.ofText first.1) (Bytes.ofText second.1) = .lt

/-- Integers have 64 bits, with a sign or without, doubles are finite numbers, and lengths have 32 bits. -/
inductive Valid : Document → Prop
  | null : Valid .null
  | bool (value : Bool) : Valid (.bool value)
  | integer (value : Int) (low : -0x8000000000000000 ≤ value) (high : value < 0x10000000000000000) :
      Valid (.integer value)
  | double (value : Double) (finite : value.isFinite = true) : Valid (.double value)
  | text (value : String) (short : (Bytes.ofText value).length < 0x100000000) : Valid (.text value)
  | array (items : List Document) (short : items.length < 0x100000000)
      (each : ∀ item ∈ items, Valid item) : Valid (.array items)
  | object (members : List (String × Document)) (short : members.length < 0x100000000)
      (sorted : Sorted members)
      (names : ∀ member ∈ members, (Bytes.ofText member.1).length < 0x100000000)
      (each : ∀ member ∈ members, Valid member.2) : Valid (.object members)

theorem depth_array_le (items : List Document) (limit : Nat) :
    (array items).depth ≤ limit + 1 ↔ ∀ item ∈ items, item.depth ≤ limit := by
  have deepest : depthOfItems items ≤ limit ↔ ∀ item ∈ items, item.depth ≤ limit := by
    induction items with
    | nil => simp [depthOfItems]
    | cons item rest ih => rw [depthOfItems, Nat.max_le, ih, List.forall_mem_cons]
  rw [depth, Nat.add_le_add_iff_right, deepest]

theorem depth_object_le (members : List (String × Document)) (limit : Nat) :
    (object members).depth ≤ limit + 1 ↔ ∀ member ∈ members, member.2.depth ≤ limit := by
  have deepest : depthOfMembers members ≤ limit ↔ ∀ member ∈ members, member.2.depth ≤ limit := by
    induction members with
    | nil => simp [depthOfMembers]
    | cons member rest ih => rw [depthOfMembers, Nat.max_le, ih, List.forall_mem_cons]
  rw [depth, Nat.add_le_add_iff_right, deepest]

theorem writeItems_eq (items : List Document) : writeItems items = items.flatMap write := by
  induction items with
  | nil => rfl
  | cons item rest ih => rw [writeItems, ih, List.flatMap_cons]

theorem writeMembers_eq (members : List (String × Document)) :
    writeMembers members = members.flatMap fun member => writeText member.1 ++ write member.2 := by
  induction members with
  | nil => rfl
  | cons member rest ih => rw [writeMembers, ih, List.flatMap_cons]

theorem toItems_eq (items : List Document) : toItems items = items.map toValue := by
  induction items with
  | nil => rfl
  | cons item rest ih => rw [toItems, ih, List.map_cons]

theorem toEntries_eq (members : List (String × Document)) :
    toEntries members =
      members.map fun member => (.text (Bytes.ofText member.1), member.2.toValue) := by
  induction members with
  | nil => rfl
  | cons member rest ih => rw [toEntries, ih, List.map_cons]

def IsReadBack (document : Document) : Prop :=
  ∀ limit rest, Value.readWithin limit (document.write ++ rest) =
    if document.depth ≤ limit then some (document.toValue, rest) else none

theorem isReadBack_flat {document : Document} (flat : document.depth = 0)
    (reads : Reads document.write document.toValue) : document.IsReadBack := by
  intro limit rest
  rw [if_pos (flat ▸ Nat.zero_le limit)]
  exact reads limit rest

theorem isReadBack_array (items : List Document) (short : items.length < 0x100000000)
    (each : ∀ item ∈ items, item.IsReadBack) : (array items).IsReadBack := by
  intro limit rest
  have announced := arrayHead_announces items.length short
  rw [write, toValue, writeItems_eq, toItems_eq, List.append_assoc]
  cases limit with
  | zero => rw [announced.not_read fun _ _ _ => rfl, if_neg (by rw [depth]; omega)]
  | succ limit =>
    rw [announced.readWithin_array limit,
      readMany_limited _ write toValue (fun item => item.depth ≤ limit) items rest
        fun item member => each item member limit]
    simp only [depth_array_le]
    split <;> rfl

theorem isReadBack_object (members : List (String × Document)) (short : members.length < 0x100000000)
    (names : ∀ member ∈ members, (Bytes.ofText member.1).length < 0x100000000)
    (each : ∀ member ∈ members, member.2.IsReadBack) : (object members).IsReadBack := by
  intro limit rest
  have announced := mapHead_announces members.length short
  rw [write, toValue, writeMembers_eq, toEntries_eq, List.append_assoc]
  cases limit with
  | zero => rw [announced.not_read fun _ _ _ => rfl, if_neg (by rw [depth]; omega)]
  | succ limit =>
    have entry (member : String × Document) (listed : member ∈ members) (rest : Bytes) :
        readEntry (Value.readWithin limit) (writeText member.1 ++ write member.2 ++ rest) =
          if member.2.depth ≤ limit then
            some ((.text (Bytes.ofText member.1), member.2.toValue), rest) else none := by
      have key := writeText_reads member.1 (names member listed) limit (write member.2 ++ rest)
      simp only [readEntry, List.append_assoc, key, each member listed limit rest]
      by_cases fits : member.2.depth ≤ limit
      · rw [if_pos fits, if_pos fits]
      · rw [if_neg fits, if_neg fits]
    rw [announced.readWithin_map limit,
      readMany_limited _ _ _ (fun member => member.2.depth ≤ limit) members rest entry]
    simp only [depth_object_le]
    split <;> rfl

theorem Valid.isReadBack {document : Document} (valid : document.Valid) : document.IsReadBack := by
  induction valid with
  | null =>
    refine isReadBack_flat rfl ?_
    exact reads_of_head 0xc0 [] _ (.whole .nil) rfl fun _ _ => rfl
  | bool value =>
    refine isReadBack_flat rfl ?_
    cases value with
    | false => exact reads_of_head 0xc2 [] _ (.whole (.bool false)) rfl fun _ _ => rfl
    | true => exact reads_of_head 0xc3 [] _ (.whole (.bool true)) rfl fun _ _ => rfl
  | integer value low high =>
    refine isReadBack_flat rfl ?_
    rw [write, writeInteger, toValue]
    split
    · exact writeUnsigned_reads value.toNat (by omega)
    · exact writeNegative_reads value low (by omega)
  | double value finite =>
    refine isReadBack_flat rfl ?_
    rw [write, toValue, if_pos finite, if_pos finite]
    refine reads_of_head 0xcb _ _ .double rfl fun inside rest => ?_
    simp only [readBody, readNumber_ofNat 8 value.bits.toNat rest value.bits.toNat_lt, Option.map_some,
      UInt64.ofNat_toNat]
  | text value short =>
    refine isReadBack_flat rfl ?_
    rw [write, toValue]
    exact writeText_reads value short
  | array items short _ each => exact isReadBack_array items short each
  | object members short _ names _ each => exact isReadBack_object members short names each

theorem enterMember_last (name : String) (value : Document) (members : List (String × Document))
    (before : ∀ member ∈ members, compare (Bytes.ofText member.1) (Bytes.ofText name) = .lt) :
    enterMember name value members = members ++ [(name, value)] := by
  induction members with
  | nil => rfl
  | cons member rest ih =>
    obtain ⟨here, there⟩ := List.forall_mem_cons.mp before
    have after : compare (Bytes.ofText name) (Bytes.ofText member.1) = .gt :=
      Std.OrientedCmp.gt_of_lt here
    simp only [enterMember, after, ih there, List.cons_append]

theorem ofItems?_toItems (items read : List Document)
    (each : ∀ item ∈ items, ofValue? item.toValue = some item) :
    ofItems? (toItems items) read = some (read.reverse ++ items) := by
  induction items generalizing read with
  | nil => rw [toItems, ofItems?, List.append_nil]
  | cons item rest ih =>
    obtain ⟨here, there⟩ := List.forall_mem_cons.mp each
    rw [toItems, ofItems?, here]
    dsimp only
    rw [ih (item :: read) there, List.reverse_cons, ← List.append_cons]

theorem ofEntries?_toEntries (members read : List (String × Document))
    (each : ∀ member ∈ members, ofValue? member.2.toValue = some member.2)
    (sorted : Sorted (read ++ members)) :
    ofEntries? (toEntries members) read = some (read ++ members) := by
  induction members generalizing read with
  | nil => rw [toEntries, ofEntries?, List.append_nil]
  | cons member rest ih =>
    obtain ⟨here, there⟩ := List.forall_mem_cons.mp each
    -- The name comes after those read so far, so the member is entered at their end.
    have before := (List.pairwise_append.mp sorted).2.2
    have entered := enterMember_last member.1 member.2 read
      fun other listed => before other listed member List.mem_cons_self
    rw [List.append_cons] at sorted ⊢
    rw [toEntries, ofEntries?, Bytes.toText?_ofText, here]
    dsimp only
    rw [entered, ih _ there sorted]

theorem Valid.known {document : Document} (valid : document.Valid) :
    ofValue? document.toValue = some document := by
  induction valid with
  | null => rfl
  | bool value => rfl
  | integer value low high =>
    rw [toValue]
    split
    · rename_i positive
      rw [ofValue?, Int.toNat_of_nonneg positive]
    · rfl
  | double value finite =>
    rw [toValue, if_pos finite]
    change some (if value.isFinite then Document.double value else .null) = _
    rw [if_pos finite]
  | text value short =>
    rw [toValue, ofValue?, Bytes.toText?_ofText]
    rfl
  | array items short _ each =>
    rw [toValue, ofValue?, ofItems?_toItems items [] each]
    rfl
  | object members short sorted _ _ each =>
    rw [toValue, ofValue?, ofEntries?_toEntries members [] each sorted]
    rfl

theorem mem_of_mem_enterMember {name : String} {value : Document} {members : List (String × Document)}
    {member : String × Document} (entered : member ∈ enterMember name value members) :
    member = (name, value) ∨ member ∈ members := by
  induction members with
  | nil => exact Or.inl (List.mem_singleton.mp entered)
  | cons first rest ih =>
    rw [enterMember] at entered
    split at entered
    · exact List.mem_cons.mp entered
    · exact (List.mem_cons.mp entered).imp_right (List.mem_cons_of_mem _)
    · rcases List.mem_cons.mp entered with rfl | later
      · exact Or.inr List.mem_cons_self
      · exact (ih later).imp_right (List.mem_cons_of_mem _)

theorem length_enterMember_le (name : String) (value : Document) (members : List (String × Document)) :
    (enterMember name value members).length ≤ members.length + 1 := by
  induction members with
  | nil => exact Nat.le_refl 1
  | cons first rest ih =>
    rw [enterMember]
    split <;> simp only [List.length_cons] <;> omega

theorem enterMember_sorted (name : String) (value : Document) (members : List (String × Document))
    (sorted : Sorted members) : Sorted (enterMember name value members) := by
  induction members with
  | nil => exact List.pairwise_singleton _ _
  | cons first rest ih =>
    obtain ⟨before, others⟩ := List.pairwise_cons.mp sorted
    rw [enterMember]
    split
    · rename_i less
      refine List.pairwise_cons.mpr ⟨fun other listed => ?_, sorted⟩
      rcases List.mem_cons.mp listed with rfl | later
      · exact less
      · exact Std.TransCmp.lt_trans less (before other later)
    · rename_i same
      have names : Bytes.ofText name = Bytes.ofText first.1 := Std.LawfulEqOrd.eq_of_compare same
      refine List.pairwise_cons.mpr ⟨fun other later => ?_, others⟩
      rw [names]
      exact before other later
    · rename_i greater
      refine List.pairwise_cons.mpr ⟨fun other listed => ?_, ih others⟩
      rcases mem_of_mem_enterMember listed with rfl | later
      · exact Std.OrientedCmp.lt_of_gt greater
      · exact before other later

theorem ofMembers_valid (members : List (String × Document)) (short : members.length < 0x100000000)
    (names : ∀ member ∈ members, (Bytes.ofText member.1).length < 0x100000000)
    (each : ∀ member ∈ members, member.2.Valid) : (ofMembers members).Valid := by
  have folded (rest sofar : List (String × Document)) (sorted : Sorted sofar)
      (known : ∀ member ∈ sofar ++ rest, member ∈ members)
      (few : sofar.length + rest.length ≤ members.length) :
      (object (rest.foldl (fun sorted member => enterMember member.1 member.2 sorted) sofar)).Valid := by
    induction rest generalizing sofar with
    | nil =>
      rw [List.append_nil] at known
      exact .object sofar (by simp only [List.length_nil] at few; omega) sorted
        (fun member listed => names member (known member listed))
        fun member listed => each member (known member listed)
    | cons member rest ih =>
      rw [List.foldl_cons]
      refine ih _ (enterMember_sorted member.1 member.2 sofar sorted) (fun other listed => ?_) ?_
      · refine known other ?_
        rw [List.mem_append, List.mem_cons]
        rcases List.mem_append.mp listed with entered | later
        · exact (mem_of_mem_enterMember entered).elim (fun same => Or.inr (Or.inl same)) Or.inl
        · exact Or.inr (Or.inr later)
      · have more := length_enterMember_le member.1 member.2 sofar
        rw [List.length_cons] at few
        omega
  exact folded members [] List.Pairwise.nil (fun _ listed => listed) (by rw [List.length_nil]; omega)

def within : Nat → Document → Document
  | 0, inner => inner
  | count + 1, inner => .array [within count inner]

theorem depth_within (count : Nat) (inner : Document) : (within count inner).depth = inner.depth + count := by
  induction count with
  | zero => rfl
  | succ count ih =>
    rw [within, depth, depthOfItems, depthOfItems, ih, Nat.max_zero]
    rfl

theorem Valid.within {inner : Document} (valid : inner.Valid) (count : Nat) :
    (Document.within count inner).Valid := by
  induction count with
  | zero => exact valid
  | succ count ih =>
    refine .array [Document.within count inner] ?_ (List.forall_mem_singleton.mpr ih)
    rw [List.length_singleton]
    decide

end Document

namespace Payload
open Document

/-- A document is known again from its packed form, unless it nests too deep. -/
theorem document_round_trip (document : Document) (valid : document.Valid) :
    decode (encode document) =
      if document.depth ≤ 1023 then .ok document else .error (.serialization .packed) := by
  have read := valid.isReadBack 1023 []
  rw [List.append_nil] at read
  rw [decode, decodeAs, encode, Pack.Value.read, Pack.depthLimit, read]
  by_cases fits : document.depth ≤ 1023
  · rw [if_pos fits, if_pos fits, Option.bind_some]
    dsimp only
    rw [valid.known]
  · rw [if_neg fits, if_neg fits]
    rfl

theorem document_round_trip_limit :
    let inner := ofMembers [("b", .array [.integer (-5)]), ("a", .double ⟨0x3ff8000000000000⟩)]
    inner.depth = 2 ∧ decode (encode (within 1021 inner)) = .ok (within 1021 inner) ∧
      decode (encode (within 1022 inner)) = .error (.serialization .packed) := by
  intro inner
  have valid : inner.Valid := by
    refine ofMembers_valid _ (by decide) (by decide) ?_
    refine List.forall_mem_cons.mpr ⟨?_, List.forall_mem_singleton.mpr (.double _ (by decide))⟩
    exact .array _ (by decide) (List.forall_mem_singleton.mpr (.integer _ (by decide) (by decide)))
  have two : inner.depth = 2 := by rfl
  refine ⟨two, ?_, ?_⟩
  · rw [document_round_trip _ (valid.within 1021), depth_within, two, if_pos (by decide)]
  · rw [document_round_trip _ (valid.within 1022), depth_within, two, if_neg (by decide)]

end Payload
end TenantQueue
