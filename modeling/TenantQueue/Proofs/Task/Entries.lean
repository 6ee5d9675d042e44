import TenantQueue.Proofs.Pack.Exactness
import TenantQueue.Proofs.Task.Draft
import Mathlib.Data.List.Basic

/-! What of its bytes a task depends on. A record is read from its own bytes, all of them and no others.
Of a record in map form only the values of the fields count, whatever the order of its entries, the
form of its keys, and what else it holds. -/
namespace TenantQueue

namespace Task
open Pack

def read? (bytes : Bytes) : Option Task := (Value.read bytes).bind fun found => ofValue? found.1

theorem decode_eq (bytes : Bytes) :
    decode bytes = ((read? bytes).elim (.error (.serialization .packed)) .ok) := by
  unfold decode read?
  cases (Value.read bytes).bind fun found => ofValue? found.1 <;> rfl

theorem read?_of_decode {bytes : Bytes} {task : Task} (decoded : decode bytes = .ok task) :
    read? bytes = some task := by
  rw [decode_eq] at decoded
  cases read : read? bytes with
  | none => simp [read] at decoded
  | some found =>
    rw [read] at decoded
    exact congrArg some (Except.ok.inj decoded)

/-- A task is decoded from so many bytes in front, whatever follows them, and from no fewer. -/
theorem truncated_never_decoded (bytes : Bytes) (task : Task) (decoded : decode bytes = .ok task) :
    ∃ count ≤ bytes.length, (∃ value, Value.read bytes = some (value, bytes.drop count)) ∧
      (∀ more, decode (bytes.take count ++ more) = .ok task) ∧
      ∀ fewer < count, decode (bytes.take fewer) = .error (.serialization .packed) := by
  obtain ⟨⟨value, rest⟩, read, means⟩ := Option.bind_eq_some_iff.mp (read?_of_decode decoded)
  obtain ⟨used, rfl, takes⟩ := readWithin_exact depthLimit bytes value rest read
  have front : (used ++ rest).take used.length = used := List.take_left
  refine ⟨used.length, ?_, ⟨value, ?_⟩, ?_, ?_⟩
  · rw [List.length_append]
    exact Nat.le_add_right _ _
  · rw [List.drop_left]
    exact read
  · intro more
    rw [front, decode_eq, read?, Value.read, takes.whole, Option.bind_some, means]
    rfl
  · intro fewer short
    have part : (used ++ rest).take fewer <+: used := by
      rw [List.take_append_of_le_length (Nat.le_of_lt short)]
      exact List.take_prefix fewer used
    have differs : (used ++ rest).take fewer ≠ used := by
      intro same
      have length := congrArg List.length same
      rw [List.length_take, List.length_append] at length
      omega
    rw [decode_eq, read?, Value.read, takes.cut _ part differs]
    rfl

/-- A record with an entry that is passed over and nests, and one more byte. -/
theorem truncated_never_decoded_nested :
    let task : Task := ⟨"t", ⟨1⟩, [97], ⟨0, 0⟩, 0⟩
    let record : Bytes := [0x85, 0, 0xa1, 0x74, 1, 1, 2, 0x91, 97, 7, 0x92, 0x90, 0xd4, 1, 2, 3, 0xb4] ++
      Bytes.ofText "1970-01-01T00:00:00Z"
    decode (record ++ [0xc1]) = .ok task ∧ record.length = 37 ∧
      ∀ fewer < 37, decode (record.take fewer) = .error (.serialization .packed) := by
  intro task record
  have decoded : decode (record ++ [0xc1]) = .ok task := by rfl
  have length : record.length = 37 := by rfl
  obtain ⟨count, _, ⟨value, read⟩, _, cut⟩ := truncated_never_decoded _ _ decoded
  have left : (Value.read (record ++ [0xc1])).map Prod.snd = some [0xc1] := by rfl
  rw [read, Option.map_some] at left
  have whole : count = 37 := by
    have one := congrArg List.length (Option.some.inj left)
    rw [List.length_drop, List.length_append, length] at one
    simp only [List.length_cons, List.length_nil] at one
    omega
  subst whole
  refine ⟨decoded, length, fun fewer short => ?_⟩
  have part : (record ++ [0xc1]).take fewer = record.take fewer :=
    List.take_append_of_le_length (by omega)
  rw [← part]
  exact cut fewer short

/-- An entry of a packed map as it is written: the bytes of a key, and those of a value. -/
structure Entry where
  key : Piece
  value : Piece

namespace Entry

def bytes (entry : Entry) : Bytes := entry.key.bytes ++ entry.value.bytes

def pair (entry : Entry) : Value × Value := (entry.key.value, entry.value.value)

def isNamed (entry : Entry) : Bool := (Field.ofKey? entry.key.value).isSome

/-- The entry can stand in a record: its key can name a field, and its value does not nest too deep. -/
def isLegible (entry : Entry) : Bool := entry.isNamed && entry.value.fits (depthLimit - 1)

def part? (entry : Entry) : Option (Field × Value) :=
  (Field.ofKey? entry.key.value).join.map fun field => (field, entry.value.value)

/-- The key does not name a field, though it could, and the value does not nest too deep. -/
def isPassedOver (entry : Entry) : Bool := entry.isLegible && entry.part?.isNone

theorem key_flat {entry : Entry} (named : entry.isNamed = true) : entry.key.value.nests = false := by
  rw [isNamed] at named
  cases known : entry.key.value with
  | array items => simp [known, Field.ofKey?] at named
  | map entries => simp [known, Field.ofKey?] at named
  | extension kind bytes => simp [known, Field.ofKey?] at named
  | _ => rfl

/-- At its place in a record an entry is read to its end, or not at all. -/
theorem reads_or_fails (entry : Entry) :
    (entry.isLegible = entry.isNamed ∧ ∀ rest,
        readEntry (Value.readWithin (depthLimit - 1)) (entry.bytes ++ rest) = some (entry.pair, rest)) ∨
      entry.isLegible = false ∧
        ∀ rest, readEntry (Value.readWithin (depthLimit - 1)) (entry.bytes ++ rest) = none := by
  cases fits : entry.value.fits (depthLimit - 1) with
  | true =>
    have second := Piece.reads_of_fits fits
    have sound : entry.isLegible = entry.isNamed := by rw [isLegible, fits, Bool.and_true]
    cases first : entry.key.fits (depthLimit - 1) with
    | true =>
      refine Or.inl ⟨sound, fun rest => ?_⟩
      exact readEntry_append _ _ _ _ _ rest (Piece.reads_of_fits first) second
    | false =>
      have unnamed : entry.isNamed = false := by
        refine Bool.eq_false_iff.mpr fun named => ?_
        rw [Piece.fits_of_flat (key_flat named)] at first
        contradiction
      refine Or.inr ⟨sound.trans unnamed, fun rest => ?_⟩
      simp only [readEntry, bytes, List.append_assoc, Piece.fails_of_not_fits first]
  | false =>
    refine Or.inr ⟨by rw [isLegible, fits, Bool.and_false], fun rest => ?_⟩
    simp only [readEntry, bytes, List.append_assoc]
    cases first : entry.key.fits (depthLimit - 1) with
    | true => simp only [Piece.reads_of_fits first, Piece.fails_of_not_fits fits]
    | false => simp only [Piece.fails_of_not_fits first]

theorem reads_of_legible {entry : Entry} (legible : entry.isLegible = true) (rest : Bytes) :
    readEntry (Value.readWithin (depthLimit - 1)) (entry.bytes ++ rest) = some (entry.pair, rest) := by
  rcases entry.reads_or_fails with ⟨_, reads⟩ | ⟨illegible, _⟩
  · exact reads rest
  · rw [legible] at illegible
    contradiction

end Entry

/-- The bytes begin with a map of these entries, its head in any of its sizes. -/
def IsRecord (bytes : Bytes) (entries : List Entry) : Prop :=
  ∃ head rest, Announces head .map entries.length ∧
    bytes = head ++ (entries.flatMap Entry.bytes ++ rest)

def IsRow (bytes : Bytes) (items : List Piece) : Prop :=
  ∃ head rest, Announces head .array items.length ∧
    bytes = head ++ (items.flatMap Piece.bytes ++ rest)

def partsOf (entries : List Entry) : List (Field × Value) := entries.filterMap Entry.part?

theorem enterEntries_eq (entries : List Entry) (draft : Draft)
    (named : ∀ entry ∈ entries, entry.isNamed = true) :
    (entries.map Entry.pair).foldlM Draft.enterEntry? draft = draft.enterAll (partsOf entries) := by
  induction entries generalizing draft with
  | nil => rfl
  | cons entry rest ih =>
    obtain ⟨here, there⟩ := List.forall_mem_cons.mp named
    rw [List.map_cons, List.foldlM_cons, partsOf, List.filterMap_cons]
    rw [Entry.isNamed, Option.isSome_iff_exists] at here
    obtain ⟨field?, names⟩ := here
    cases field? with
    | none =>
      simp only [Draft.enterEntry?, Entry.pair, Entry.part?, names, Option.join_some, Option.map_none]
      exact ih draft there
    | some field =>
      simp only [Draft.enterEntry?, Entry.pair, Entry.part?, names, Option.join_some, Option.map_some]
      rw [Draft.enterAll_cons]
      exact congrArg (Option.bind _) (funext fun next => ih next there)

theorem enterEntries_none (entries : List Entry) (draft : Draft)
    (unnamed : ∃ entry ∈ entries, entry.isNamed = false) :
    (entries.map Entry.pair).foldlM Draft.enterEntry? draft = none := by
  induction entries generalizing draft with
  | nil =>
    obtain ⟨entry, member, _⟩ := unnamed
    contradiction
  | cons entry rest ih =>
    rw [List.map_cons, List.foldlM_cons]
    obtain ⟨bad, member, unnamed⟩ := unnamed
    rcases List.mem_cons.mp member with rfl | later
    · rw [Entry.isNamed, Option.isSome_eq_false_iff, Option.isNone_iff_eq_none] at unnamed
      simp only [Draft.enterEntry?, Entry.pair, unnamed]
      rfl
    · refine Option.bind_eq_none_iff.mpr fun next _ => ?_
      exact ih next ⟨bad, later, unnamed⟩

/-- The task of a record is that of the fields it names. -/
theorem IsRecord.read?_eq {bytes : Bytes} {entries : List Entry} (record : IsRecord bytes entries)
    (legible : ∀ entry ∈ entries, entry.isLegible = true) :
    read? bytes = ofParts? (partsOf entries) := by
  obtain ⟨head, rest, announced, rfl⟩ := record
  have many := readMany_flatMap (readEntry (Value.readWithin (depthLimit - 1))) Entry.bytes Entry.pair
    entries [] rest fun entry member => Entry.reads_of_legible (legible entry member)
  have named (entry : Entry) (member : entry ∈ entries) : entry.isNamed = true :=
    (Bool.and_eq_true_iff.mp (legible entry member)).1
  have read := announced.readWithin_map (depthLimit - 1) (entries.flatMap Entry.bytes ++ rest)
  rw [many, Option.map_some] at read
  rw [read?, Value.read]
  change (Value.readWithin (depthLimit - 1 + 1) _).bind _ = _
  rw [read, Option.bind_some, List.reverse_nil, List.nil_append, ofValue?, enterEntries_eq _ _ named]
  rfl

/-- A record with an entry that cannot stand in one. -/
theorem IsRecord.read?_none {bytes : Bytes} {entries : List Entry} (record : IsRecord bytes entries)
    (illegible : ∃ entry ∈ entries, entry.isLegible = false) : read? bytes = none := by
  obtain ⟨head, rest, announced, rfl⟩ := record
  rw [read?, Value.read]
  change (Value.readWithin (depthLimit - 1 + 1) _).bind _ = _
  rw [announced.readWithin_map (depthLimit - 1) (entries.flatMap Entry.bytes ++ rest)]
  by_cases stops : ∃ entry ∈ entries, ∀ rest,
      readEntry (Value.readWithin (depthLimit - 1)) (entry.bytes ++ rest) = none
  · rw [readMany_flatMap_none _ Entry.bytes Entry.pair entries [] rest
      (fun entry _ => entry.reads_or_fails.imp And.right And.right) stops]
    rfl
  · have reads (entry : Entry) (member : entry ∈ entries) :=
      entry.reads_or_fails.resolve_right fun fails => stops ⟨entry, member, fails.2⟩
    obtain ⟨entry, member, bad⟩ := illegible
    have unnamed : entry.isNamed = false := (reads entry member).1.symm.trans bad
    rw [readMany_flatMap _ Entry.bytes Entry.pair entries [] rest
        fun entry member => (reads entry member).2,
      Option.map_some, Option.bind_some, List.reverse_nil, List.nil_append, ofValue?,
      enterEntries_none entries _ ⟨entry, member, unnamed⟩]
    rfl

theorem part?_of_isPassedOver {entry : Entry} (passed : entry.isPassedOver = true) :
    entry.isLegible = true ∧ entry.part? = none := by
  obtain ⟨legible, nothing⟩ := Bool.and_eq_true_iff.mp passed
  exact ⟨legible, Option.isNone_iff_eq_none.mp nothing⟩

theorem partsOf_filter (entries : List Entry) :
    partsOf (entries.filter fun entry => !entry.isPassedOver) = partsOf entries := by
  rw [partsOf, partsOf, List.filterMap_filter]
  refine List.filterMap_congr fun entry _ => ?_
  cases passed : entry.isPassedOver with
  | false => rfl
  | true =>
    rw [(part?_of_isPassedOver passed).2]
    rfl

/-- Records that agree in order of entries or in entries that are passed over are read alike. -/
theorem IsRecord.read?_alike {first second : Bytes} {entries others : List Entry}
    (record : IsRecord first entries) (recordToo : IsRecord second others)
    (same : (entries.filter fun entry => !entry.isPassedOver).Perm
      (others.filter fun entry => !entry.isPassedOver)) : read? first = read? second := by
  -- An entry that cannot stand in a record is not passed over, so both records have it or neither.
  have shared {entries others : List Entry}
      (same : (entries.filter fun entry => !entry.isPassedOver).Perm
        (others.filter fun entry => !entry.isPassedOver)) {entry : Entry} (member : entry ∈ entries)
      (illegible : entry.isLegible = false) : entry ∈ others := by
    have counts : (!entry.isPassedOver) = true := by
      rw [Entry.isPassedOver, illegible]
      rfl
    exact (List.mem_filter.mp (same.mem_iff.mp (List.mem_filter.mpr ⟨member, counts⟩))).1
  by_cases legible : ∀ entry ∈ entries, entry.isLegible = true
  · have legibleToo : ∀ entry ∈ others, entry.isLegible = true := by
      intro entry member
      refine Bool.not_eq_false _ |>.mp fun illegible => ?_
      have found := legible entry (shared same.symm member illegible)
      rw [illegible] at found
      contradiction
    rw [record.read?_eq legible, recordToo.read?_eq legibleToo]
    refine ofParts?_perm ?_
    rw [← partsOf_filter entries, ← partsOf_filter others]
    exact same.filterMap Entry.part?
  · obtain ⟨entry, bad⟩ := Classical.not_forall.mp legible
    obtain ⟨member, bad⟩ := Classical.not_imp.mp bad
    rw [Bool.not_eq_true] at bad
    rw [record.read?_none ⟨entry, member, bad⟩,
      recordToo.read?_none ⟨entry, shared same member bad, bad⟩]

/-- What is read from a record, if anything, is the task of its fields. -/
theorem IsRecord.ofParts?_of_read? {bytes : Bytes} {entries : List Entry} {task : Task}
    (record : IsRecord bytes entries) (read : read? bytes = some task) :
    ofParts? (partsOf entries) = some task := by
  by_cases illegible : ∃ entry ∈ entries, entry.isLegible = false
  · rw [record.read?_none illegible] at read
    contradiction
  · rw [← read, record.read?_eq]
    intro entry member
    exact Bool.not_eq_false _ |>.mp fun bad => illegible ⟨entry, member, bad⟩

theorem partsOf_named (entries : List Entry) (fields : List Field)
    (named : entries.map (fun entry => Field.ofKey? entry.key.value) =
      fields.map fun field => some (some field)) :
    partsOf entries = fields.zip (entries.map fun entry => entry.value.value) := by
  induction entries generalizing fields with
  | nil =>
    obtain rfl := List.map_eq_nil_iff.mp named.symm
    rfl
  | cons entry rest ih =>
    cases fields with
    | nil => contradiction
    | cons field others =>
      obtain ⟨here, there⟩ := List.cons.inj named
      have names : entry.part? = some (field, entry.value.value) := by
        rw [Entry.part?, show Field.ofKey? entry.key.value = some (some field) from here]
        rfl
      rw [partsOf, List.filterMap_cons, names]
      exact congrArg _ (ih others there)

/-- A row of values is read like a record of the fields in their order. -/
theorem IsRow.read?_eq {row bytes : Bytes} {entries : List Entry}
    (values : IsRow row (entries.map Entry.value)) (record : IsRecord bytes entries)
    (size : entries.length = 4 ∨ entries.length = 5)
    (named : entries.map (fun entry => Field.ofKey? entry.key.value) =
      (Field.all.take entries.length).map fun field => some (some field)) :
    read? row = read? bytes := by
  obtain ⟨head, rest, announced, rfl⟩ := values
  have names (entry : Entry) (member : entry ∈ entries) : entry.isNamed = true := by
    have listed := List.mem_map_of_mem (f := fun entry : Entry => Field.ofKey? entry.key.value) member
    rw [named] at listed
    obtain ⟨field, _, same⟩ := List.mem_map.mp listed
    rw [Entry.isNamed, ← same]
    rfl
  have fits (entry : Entry) (member : entry ∈ entries) :
      entry.isLegible = entry.value.fits (depthLimit - 1) := by
    rw [Entry.isLegible, names entry member, Bool.true_and]
  rw [read?, Value.read]
  change (Value.readWithin (depthLimit - 1 + 1) _).bind _ = _
  rw [announced.readWithin_array]
  by_cases illegible : ∃ entry ∈ entries, entry.isLegible = false
  · obtain ⟨entry, member, bad⟩ := illegible
    rw [record.read?_none ⟨entry, member, bad⟩]
    rw [readMany_flatMap_none _ Piece.bytes Piece.value (entries.map Entry.value) [] rest
      (fun piece _ => piece.reads_or_fails _)
      ⟨entry.value, List.mem_map_of_mem member,
        Piece.fails_of_not_fits ((fits entry member).symm.trans bad)⟩]
    rfl
  · have legible (entry : Entry) (member : entry ∈ entries) : entry.isLegible = true :=
      Bool.not_eq_false _ |>.mp fun bad => illegible ⟨entry, member, bad⟩
    have reads : ∀ piece ∈ entries.map Entry.value, ∀ rest,
        Value.readWithin (depthLimit - 1) (piece.bytes ++ rest) = some (piece.value, rest) := by
      intro piece listed
      obtain ⟨entry, member, rfl⟩ := List.mem_map.mp listed
      exact Piece.reads_of_fits ((fits entry member).symm.trans (legible entry member))
    have zipped : (Field.all.take entries.length).zip (entries.map fun entry => entry.value.value) =
        Field.all.zip (entries.map fun entry => entry.value.value) := by
      have few : min Field.all.length (entries.map fun entry => entry.value.value).length =
          entries.length := by
        rw [List.length_map, Field.all]
        simp only [List.length_cons, List.length_nil]
        omega
      have whole : (entries.map fun entry => entry.value.value).take entries.length =
          entries.map fun entry => entry.value.value :=
        List.take_of_length_le (Nat.le_of_eq (List.length_map _))
      conv_rhs => rw [List.zip_eq_zip_take_min, few, whole]
    rw [record.read?_eq legible, partsOf_named entries _ named, zipped,
      readMany_flatMap _ Piece.bytes Piece.value (entries.map Entry.value) [] rest reads,
      Option.map_some, Option.bind_some, List.reverse_nil, List.nil_append, List.map_map, ofValue?,
      if_pos (by simpa using size)]
    rfl

def fieldsOf (entries : List Entry) : List Field := (partsOf entries).map Prod.fst

theorem decode_of_none {bytes : Bytes} (nothing : read? bytes = none) :
    decode bytes = .error (.serialization .packed) := by
  rw [decode_eq, nothing]
  rfl

/-- A record with an entry that cannot stand in one, with a field twice or without one that is required is
refused. Every other one is known by the values of its fields: neither their order nor entries that are
passed over change what it is read as, and a row of the values is read alike. -/
theorem record_self_describing :
    (∀ (bytes : Bytes) (entries : List Entry), IsRecord bytes entries →
        (∀ entry ∈ entries, entry.isLegible = true) → (fieldsOf entries).Nodup →
        decode bytes = ((ofFields? fun field => (partsOf entries).lookup field).elim
          (.error (.serialization .packed)) .ok)) ∧
      (∀ (first second : Bytes) (entries others : List Entry), IsRecord first entries →
        IsRecord second others →
        (entries.filter fun entry => !entry.isPassedOver).Perm
          (others.filter fun entry => !entry.isPassedOver) → decode first = decode second) ∧
      (∀ (bytes : Bytes) (entries : List Entry), IsRecord bytes entries →
        (∃ entry ∈ entries, entry.isLegible = false) ∨ ¬(fieldsOf entries).Nodup ∨
          (∃ field ∉ fieldsOf entries, field ≠ .errorCount) →
        decode bytes = .error (.serialization .packed)) ∧
      (∀ (bytes : Bytes) (entries : List Entry) (task : Task), IsRecord bytes entries →
        .errorCount ∉ fieldsOf entries → decode bytes = .ok task → task.errorCount = 0) ∧
      ∀ (row bytes : Bytes) (entries : List Entry), IsRow row (entries.map Entry.value) →
        IsRecord bytes entries → entries.length = 4 ∨ entries.length = 5 →
        entries.map (fun entry => Field.ofKey? entry.key.value) =
          (Field.all.take entries.length).map (fun field => some (some field)) →
        decode row = decode bytes := by
  refine ⟨?_, ?_, ?_, ?_, ?_⟩
  · intro bytes entries record legible distinct
    rw [decode_eq, record.read?_eq legible, ofParts?_eq _ distinct]
  · intro first second entries others record recordToo same
    rw [decode_eq, decode_eq, record.read?_alike recordToo same]
  · intro bytes entries record wrong
    refine decode_of_none (Option.eq_none_iff_forall_ne_some.mpr fun task read => ?_)
    obtain ⟨distinct, complete, _⟩ := fields_of_ofParts? (record.ofParts?_of_read? read)
    rcases wrong with illegible | repeated | ⟨field, missing, required⟩
    · rw [record.read?_none illegible] at read
      contradiction
    · exact repeated distinct
    · exact missing (complete field required)
  · intro bytes entries task record missing decoded
    exact (fields_of_ofParts? (record.ofParts?_of_read? (read?_of_decode decoded))).2.2 missing
  · intro row bytes entries values record size named
    rw [decode_eq, decode_eq, values.read?_eq record size named]

def textPiece (text : String) (short : (Bytes.ofText text).length < 0x100000000) : Piece :=
  ⟨writeText text, .text (Bytes.ofText text), 0, by
    have read := writeText_reads text short 0 []
    rwa [List.append_nil] at read⟩

theorem smallTime_short : (Bytes.ofText "1970-01-01T00:00:00Z").length < 0x100000000 := by
  decide +kernel

theorem smallPayload_whole :
    ∃ depth, Value.readWithin depth [0x91, 97] = some (.array [.unsigned 97], []) :=
  ⟨1, (announces_short 0x90 1 .array rfl).readWithin_array 0 [97]⟩

def smallEntries : List Entry :=
  [⟨textPiece "type" (by decide), textPiece "t" (by decide)⟩,
    ⟨textPiece "tenant_id" (by decide), ⟨[1], .unsigned 1, 0, rfl⟩⟩,
    ⟨textPiece "task" (by decide), ⟨[0x91, 97], .array [.unsigned 97], smallPayload_whole⟩⟩,
    ⟨textPiece "queued_on" (by decide), textPiece "1970-01-01T00:00:00Z" smallTime_short⟩]

theorem smallEntries_record : IsRecord (0x84 :: smallEntries.flatMap Entry.bytes) smallEntries :=
  ⟨[0x84], [], announces_short 0x80 4 _ rfl, by rw [List.append_nil]; rfl⟩

/-- The entries in reverse, behind one with an extension within an array, and a head of four bytes; then
a row of the values, and the entries with one of them twice. -/
theorem record_self_describing_reversed :
    let task : Task := ⟨"t", ⟨1⟩, [97], ⟨0, 0⟩, 0⟩
    let extra : Entry := ⟨⟨[7], .unsigned 7, 0, rfl⟩,
      ⟨[0x91, 0xd4, 1, 2], .array [.extension 1 [2]], 2,
        (announces_short 0x90 1 .array rfl).readWithin_array 1 [0xd4, 1, 2]⟩⟩
    let entries := extra :: smallEntries.reverse
    let twice := smallEntries ++ smallEntries.take 1
    decode ([0xdf, 0, 0, 0, 5] ++ (entries.flatMap Entry.bytes ++ [0xc1])) = .ok task ∧
      decode (0x94 :: (smallEntries.map Entry.value).flatMap Piece.bytes) = .ok task ∧
      decode (0x85 :: twice.flatMap Entry.bytes) = .error (.serialization .packed) ∧
      task.errorCount = 0 := by
  intro task extra entries twice
  obtain ⟨known, alike, refused, missing, row⟩ := record_self_describing
  have plain : decode (0x84 :: smallEntries.flatMap Entry.bytes) = .ok task := by
    rw [known _ _ smallEntries_record (by decide) (by decide)]
    rfl
  have record : IsRecord ([0xdf, 0, 0, 0, 5] ++ (entries.flatMap Entry.bytes ++ [0xc1])) entries :=
    ⟨[0xdf, 0, 0, 0, 5], [0xc1], announces_wide 0xdf 4 5 _ rfl (by decide) (by decide), rfl⟩
  have same : (smallEntries.filter fun entry => !entry.isPassedOver).Perm
      (entries.filter fun entry => !entry.isPassedOver) := by
    have here : smallEntries.filter (fun entry => !entry.isPassedOver) = smallEntries := by rfl
    have there : entries.filter (fun entry => !entry.isPassedOver) = smallEntries.reverse := by rfl
    rw [here, there]
    exact (List.reverse_perm smallEntries).symm
  have values : IsRow (0x94 :: (smallEntries.map Entry.value).flatMap Piece.bytes)
      (smallEntries.map Entry.value) :=
    ⟨[0x94], [], announces_short 0x90 4 _ rfl, by rw [List.append_nil]; rfl⟩
  have recordTwice : IsRecord (0x85 :: twice.flatMap Entry.bytes) twice :=
    ⟨[0x85], [], announces_short 0x80 5 _ rfl, by rw [List.append_nil]; rfl⟩
  refine ⟨?_, ?_, refused _ _ recordTwice (Or.inr (Or.inl (by decide))),
    missing _ _ _ smallEntries_record (by decide) plain⟩
  · rw [← alike _ _ _ _ smallEntries_record record same, plain]
  · rw [row _ _ _ values smallEntries_record (Or.inl rfl) rfl, plain]

/-- The number 5 names no field, but written with a sign it cannot stand as a key: the record with such an
entry is refused, and without it is not. -/
theorem signed_key_refused :
    let extra : Entry := ⟨⟨[0xd0, 5], .signed 5, 0, rfl⟩, ⟨[0xc0], .nil, 0, rfl⟩⟩
    let entries := smallEntries ++ [extra]
    extra.key.value.integer? = some 5 ∧ Field.all[5]? = none ∧
      extra.value.fits (depthLimit - 1) = true ∧
      IsRecord (0x84 :: smallEntries.flatMap Entry.bytes) smallEntries ∧
      IsRecord (0x85 :: entries.flatMap Entry.bytes) entries ∧
      decode (0x84 :: smallEntries.flatMap Entry.bytes) = .ok ⟨"t", ⟨1⟩, [97], ⟨0, 0⟩, 0⟩ ∧
      decode (0x85 :: entries.flatMap Entry.bytes) = .error (.serialization .packed) := by
  intro extra entries
  have record : IsRecord (0x85 :: entries.flatMap Entry.bytes) entries :=
    ⟨[0x85], [], announces_short 0x80 5 _ rfl, by rw [List.append_nil]; rfl⟩
  have bad : ∃ entry ∈ entries, entry.isLegible = false :=
    ⟨extra, List.mem_append_right _ (List.mem_singleton_self _), rfl⟩
  exact ⟨rfl, rfl, rfl, smallEntries_record, record, by rfl, decode_of_none (record.read?_none bad)⟩

end Task
end TenantQueue
