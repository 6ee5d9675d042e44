import TenantQueue.Proofs.Pack.RoundTrip

/-! What a reader uses up. It reads the same value whatever follows the bytes it has used, and no part
of them that ends sooner is enough. A value that is read at one depth is read at every greater one, so
at each depth its bytes are read to their end or not at all. -/
namespace TenantQueue.Pack
variable {α β : Type}

/-- The reader uses up these bytes for the value, and not fewer. -/
structure Takes (read : Reader α) (bytes : Bytes) (value : α) : Prop where
  whole : ∀ rest, read (bytes ++ rest) = some (value, rest)
  cut : ∀ part, part <+: bytes → part ≠ bytes → read part = none

def Exact (read : Reader α) : Prop :=
  ∀ input value rest, read input = some (value, rest) →
    ∃ used, input = used ++ rest ∧ Takes read used value

theorem takes_nothing (value : α) : Takes (fun input => some (value, input)) [] value where
  whole _ := rfl
  cut _ shorter differs := absurd (List.prefix_nil.mp shorter) differs

theorem exact_pure (value : α) : Exact fun input => some (value, input) := by
  intro input found rest read
  obtain ⟨rfl, rfl⟩ := Prod.mk.inj (Option.some.inj read)
  exact ⟨[], rfl, takes_nothing value⟩

theorem exact_none : Exact fun _ => (none : Option (α × Bytes)) := by
  intro input found rest read
  contradiction

theorem prefix_append_cases {part first second : Bytes} (shorter : part <+: first ++ second) :
    (part <+: first ∧ part ≠ first) ∨ ∃ inner, part = first ++ inner ∧ inner <+: second := by
  obtain ⟨left, whole⟩ := shorter
  rcases List.append_eq_append_iff.mp whole with ⟨inner, same, _⟩ | ⟨inner, same, tail⟩
  · by_cases ends : inner = []
    · subst ends
      exact Or.inr ⟨[], by simpa using same.symm, List.nil_prefix⟩
    · refine Or.inl ⟨⟨inner, same.symm⟩, ?_⟩
      rintro rfl
      exact ends (List.self_eq_append_right.mp same)
  · exact Or.inr ⟨inner, same, ⟨left, tail.symm⟩⟩

theorem Takes.bind {first : Reader α} {second : α → Reader β} {one two : Bytes} {found : α} {value : β}
    (once : Takes first one found) (again : Takes (second found) two value) :
    Takes (fun input => (first input).bind fun read => second read.1 read.2) (one ++ two) value where
  whole rest := by
    rw [List.append_assoc, once.whole, Option.bind_some, again.whole]
  cut part shorter differs := by
    rcases prefix_append_cases shorter with ⟨within, short⟩ | ⟨inner, rfl, within⟩
    · rw [once.cut part within short, Option.bind_none]
    · have short : inner ≠ two := fun same => differs (by rw [same])
      rw [once.whole, Option.bind_some, again.cut inner within short]

theorem exact_bind {first : Reader α} {second : α → Reader β} (once : Exact first)
    (again : ∀ found, Exact (second found)) :
    Exact fun input => (first input).bind fun read => second read.1 read.2 := by
  intro input value rest read
  obtain ⟨⟨found, middle⟩, here, there⟩ := Option.bind_eq_some_iff.mp read
  obtain ⟨one, rfl, takesOne⟩ := once input found middle here
  obtain ⟨two, rfl, takesTwo⟩ := again found middle value rest there
  exact ⟨one ++ two, (List.append_assoc one two rest).symm, takesOne.bind takesTwo⟩

theorem exact_map {read : Reader α} (change : α → β) (exact : Exact read) :
    Exact fun input => (read input).map fun found => (change found.1, found.2) := by
  have mapped := exact_bind exact fun found => exact_pure (change found)
  simpa only [Option.map_eq_bind, Function.comp_def] using mapped

theorem exact_cons {next : UInt8 → Reader α} (exact : ∀ first, Exact (next first)) :
    Exact fun input => match input with
      | [] => none
      | first :: rest => next first rest := by
  intro input value rest read
  cases input with
  | nil => contradiction
  | cons first others =>
    obtain ⟨used, rfl, takes⟩ := exact first others value rest read
    refine ⟨first :: used, rfl, ⟨takes.whole, ?_⟩⟩
    intro part shorter differs
    cases part with
    | nil => rfl
    | cons head tail =>
      obtain ⟨rfl, within⟩ := List.cons_prefix_cons.mp shorter
      exact takes.cut tail within fun same => differs (by rw [same])

theorem readBytes_exact (count : Nat) : Exact (readBytes count) := by
  intro input bytes rest read
  simp only [readBytes] at read
  split at read
  · rename_i enough
    obtain ⟨rfl, rfl⟩ := Prod.mk.inj (Option.some.inj read)
    refine ⟨input.take count, (List.take_append_drop count input).symm, ?_, ?_⟩
    · intro more
      have long : count ≤ input.length := by
        rw [List.length_take] at enough
        omega
      simp [readBytes, long]
    · intro part shorter differs
      have short : part.length < count := by
        have less := shorter.length_le
        rw [enough] at less
        refine Nat.lt_of_le_of_ne less fun same => differs (shorter.eq_of_length ?_)
        rw [same, enough]
      have few : (part.take count).length ≠ count := by
        rw [List.length_take]
        omega
      simp only [readBytes, if_neg few]
  · contradiction

theorem readNumber_exact (width : Nat) : Exact (readNumber width) :=
  exact_map Bytes.toNat (readBytes_exact width)

theorem readSigned_exact (width : Nat) : Exact (readSigned width) :=
  exact_map (fun number => if 2 * number < Nat.pow 256 width then (number : Int)
    else number - (Nat.pow 256 width : Nat)) (readNumber_exact width)

theorem readLength_exact (lengthWidth length : Nat) : Exact (readLength lengthWidth length) := by
  unfold readLength
  split
  · exact exact_pure length
  · exact readNumber_exact lengthWidth

theorem readMany_succ (read : Reader α) (count : Nat) (before : List α) :
    readMany read (count + 1) before =
      fun input => (read input).bind fun found => readMany read count (found.1 :: before) found.2 := by
  funext input
  rw [readMany]
  cases read input <;> rfl

theorem readEntry_eq (read : Reader Value) :
    readEntry read = fun input => (read input).bind fun key =>
      (read key.2).bind fun value => some ((key.1, value.1), value.2) := by
  funext input
  rw [readEntry]
  cases read input with
  | none => rfl
  | some key =>
    simp only [Option.bind_some]
    cases read key.2 <;> rfl

theorem readWithin_zero : Value.readWithin 0 = fun input => match input with
    | [] => none
    | first :: rest => readBody none (Head.ofByte first) rest := by
  funext input
  cases input <;> rfl

theorem readWithin_succ (depth : Nat) : Value.readWithin (depth + 1) = fun input => match input with
    | [] => none
    | first :: rest => readBody (some (Value.readWithin depth)) (Head.ofByte first) rest := by
  funext input
  cases input <;> rfl

theorem readMany_exact {read : Reader α} (exact : Exact read) (count : Nat) (before : List α) :
    Exact (readMany read count before) := by
  induction count generalizing before with
  | zero => exact exact_pure before.reverse
  | succ count ih =>
    rw [readMany_succ]
    exact exact_bind exact fun value => ih (value :: before)

theorem readEntry_exact {read : Reader Value} (exact : Exact read) : Exact (readEntry read) := by
  rw [readEntry_eq]
  exact exact_bind exact fun key => exact_bind exact fun value => exact_pure (key, value)

theorem readSized_exact (lengthWidth length : Nat) (make : Bytes → Value) :
    Exact (readSized lengthWidth length make) :=
  exact_bind (readLength_exact lengthWidth length) fun count =>
    exact_bind (readBytes_exact count) fun bytes => exact_pure (make bytes)

theorem readExtension_exact (lengthWidth length : Nat) : Exact (readExtension lengthWidth length) :=
  exact_bind (readLength_exact lengthWidth length) fun count =>
    exact_cons fun kind =>
      exact_bind (readBytes_exact count) fun bytes => exact_pure (Value.extension kind bytes)

theorem readBody_exact {inside : Option (Reader Value)}
    (deeper : ∀ read, inside = some read → Exact read) (head : Head) : Exact (readBody inside head) := by
  cases head with
  | whole value => exact exact_pure value
  | unsigned width => exact exact_map Value.unsigned (readNumber_exact width)
  | signed width => exact exact_map Value.signed (readSigned_exact width)
  | single =>
    exact exact_map (fun number => Value.single (UInt32.ofNat number)) (readNumber_exact 4)
  | double =>
    exact exact_map (fun number => Value.double (UInt64.ofNat number)) (readNumber_exact 8)
  | text lengthWidth length => exact readSized_exact lengthWidth length .text
  | binary lengthWidth => exact readSized_exact lengthWidth 0 .binary
  | array lengthWidth length =>
    cases inside with
    | none => exact exact_none
    | some read =>
      exact exact_bind (readLength_exact lengthWidth length) fun count =>
        exact_bind (readMany_exact (deeper read rfl) count []) fun items =>
          exact_pure (Value.array items)
  | map lengthWidth length =>
    cases inside with
    | none => exact exact_none
    | some read =>
      exact exact_bind (readLength_exact lengthWidth length) fun count =>
        exact_bind (readMany_exact (readEntry_exact (deeper read rfl)) count []) fun entries =>
          exact_pure (Value.map entries)
  | extension lengthWidth length =>
    cases inside with
    | none => exact exact_none
    | some read => exact readExtension_exact lengthWidth length
  | reserved => exact exact_none

theorem readWithin_exact (depth : Nat) : Exact (Value.readWithin depth) := by
  induction depth with
  | zero =>
    rw [readWithin_zero]
    exact exact_cons fun first =>
      readBody_exact (fun _ nests => by contradiction) (Head.ofByte first)
  | succ depth ih =>
    rw [readWithin_succ]
    refine exact_cons fun first => readBody_exact ?_ (Head.ofByte first)
    rintro read ⟨⟩
    exact ih

def Covers (large small : Reader α) : Prop :=
  ∀ input found, small input = some found → large input = some found

theorem covers_self (read : Reader α) : Covers read read := fun _ _ same => same

theorem covers_bind {small large : Reader α} {next after : α → Reader β} (once : Covers large small)
    (again : ∀ found, Covers (after found) (next found)) :
    Covers (fun input => (large input).bind fun read => after read.1 read.2)
      (fun input => (small input).bind fun read => next read.1 read.2) := by
  intro input last read
  obtain ⟨found, here, there⟩ := Option.bind_eq_some_iff.mp read
  exact Option.bind_eq_some_iff.mpr ⟨found, once input found here, again found.1 found.2 last there⟩

theorem readMany_covers {small large : Reader α} (covers : Covers large small) (count : Nat)
    (before : List α) : Covers (readMany large count before) (readMany small count before) := by
  induction count generalizing before with
  | zero => exact covers_self _
  | succ count ih =>
    rw [readMany_succ, readMany_succ]
    exact covers_bind covers fun value => ih (value :: before)

theorem readEntry_covers {small large : Reader Value} (covers : Covers large small) :
    Covers (readEntry large) (readEntry small) := by
  rw [readEntry_eq, readEntry_eq]
  exact covers_bind covers fun key => covers_bind covers fun value =>
    covers_self fun rest => some ((key, value), rest)

theorem readBody_covers {inside outside : Option (Reader Value)}
    (deeper : ∀ read, inside = some read → ∃ larger, outside = some larger ∧ Covers larger read)
    (head : Head) :
    Covers (readBody outside head) (readBody inside head) := by
  cases inside with
  | none =>
    cases head with
    | array lengthWidth length => exact nofun
    | map lengthWidth length => exact nofun
    | extension lengthWidth length => exact nofun
    | _ => exact covers_self _
  | some read =>
    obtain ⟨larger, rfl, covers⟩ := deeper read rfl
    cases head with
    | array lengthWidth length =>
      exact covers_bind (covers_self (readLength lengthWidth length)) fun count =>
        covers_bind (readMany_covers covers count []) fun items =>
          covers_self fun rest => some (Value.array items, rest)
    | map lengthWidth length =>
      exact covers_bind (covers_self (readLength lengthWidth length)) fun count =>
        covers_bind (readMany_covers (readEntry_covers covers) count []) fun entries =>
          covers_self fun rest => some (Value.map entries, rest)
    | _ => exact covers_self _

theorem readWithin_covers {shallow deep : Nat} (le : shallow ≤ deep) :
    Covers (Value.readWithin deep) (Value.readWithin shallow) := by
  have once (depth : Nat) : Covers (Value.readWithin (depth + 1)) (Value.readWithin depth) := by
    induction depth with
    | zero =>
      intro input found read
      cases input with
      | nil => contradiction
      | cons first rest =>
        exact readBody_covers (fun _ nests => by contradiction) (Head.ofByte first) rest found read
    | succ depth ih =>
      intro input found read
      cases input with
      | nil => contradiction
      | cons first rest =>
        refine readBody_covers ?_ (Head.ofByte first) rest found read
        rintro inner ⟨⟩
        exact ⟨_, rfl, ih⟩
  induction le with
  | refl => exact covers_self _
  | step _ ih => exact fun input found read => once _ input found (ih input found read)

/-- An array, a map or an extension, which a reader takes only where something may nest. -/
def Value.nests : Value → Bool
  | .array _ => true
  | .map _ => true
  | .extension _ _ => true
  | _ => false

theorem readBody_flat {inside : Option (Reader Value)} {head : Head} {input rest : Bytes}
    {value : Value} (read : readBody inside head input = some (value, rest)) (flat : value.nests = false)
    (outside : Option (Reader Value)) : readBody outside head input = some (value, rest) := by
  cases head with
  | array lengthWidth length =>
    obtain ⟨reader, _, read⟩ := Option.bind_eq_some_iff.mp read
    obtain ⟨_, _, read⟩ := Option.bind_eq_some_iff.mp read
    obtain ⟨_, _, read⟩ := Option.bind_eq_some_iff.mp read
    obtain ⟨rfl, _⟩ := Prod.mk.inj (Option.some.inj read)
    contradiction
  | map lengthWidth length =>
    obtain ⟨reader, _, read⟩ := Option.bind_eq_some_iff.mp read
    obtain ⟨_, _, read⟩ := Option.bind_eq_some_iff.mp read
    obtain ⟨_, _, read⟩ := Option.bind_eq_some_iff.mp read
    obtain ⟨rfl, _⟩ := Prod.mk.inj (Option.some.inj read)
    contradiction
  | extension lengthWidth length =>
    simp only [readBody, readExtension] at read
    split at read
    · obtain ⟨⟨_, others⟩, _, read⟩ := Option.bind_eq_some_iff.mp read
      dsimp only at read
      split at read
      · contradiction
      · obtain ⟨_, _, read⟩ := Option.bind_eq_some_iff.mp read
        obtain ⟨rfl, _⟩ := Prod.mk.inj (Option.some.inj read)
        contradiction
    · contradiction
  | _ => exact read

/-- A value that does not nest is read at any depth. -/
theorem readWithin_flat {depth : Nat} {input rest : Bytes} {value : Value}
    (read : Value.readWithin depth input = some (value, rest)) (flat : value.nests = false)
    (other : Nat) : Value.readWithin other input = some (value, rest) := by
  cases input with
  | nil => cases depth <;> contradiction
  | cons first bytes =>
    obtain ⟨inside, here⟩ := readWithin_cons depth first bytes
    obtain ⟨outside, there⟩ := readWithin_cons other first bytes
    rw [there]
    exact readBody_flat (here ▸ read) flat outside

/-- A value in packed form, read to the end of its bytes at some depth. -/
structure Piece where
  bytes : Bytes
  value : Value
  whole : ∃ depth, Value.readWithin depth bytes = some (value, [])

namespace Piece

/-- At each depth a piece is read to its end, or not at all. -/
theorem reads_or_fails (piece : Piece) (depth : Nat) :
    (∀ rest, Value.readWithin depth (piece.bytes ++ rest) = some (piece.value, rest)) ∨
      ∀ rest, Value.readWithin depth (piece.bytes ++ rest) = none := by
  obtain ⟨known, whole⟩ := piece.whole
  obtain ⟨used, same, takes⟩ := readWithin_exact known piece.bytes piece.value [] whole
  rw [List.append_nil] at same
  subst same
  by_cases fails : ∀ rest, Value.readWithin depth (piece.bytes ++ rest) = none
  · exact Or.inr fails
  · left
    obtain ⟨rest, reads⟩ := Classical.not_forall.mp fails
    obtain ⟨found, read⟩ := Option.ne_none_iff_exists'.mp reads
    have here := readWithin_covers (Nat.le_max_left depth known) _ _ read
    have there := readWithin_covers (Nat.le_max_right depth known) _ _ (takes.whole rest)
    obtain rfl := Option.some.inj (here.symm.trans there)
    obtain ⟨used, same, takesToo⟩ := readWithin_exact depth _ _ _ read
    rw [List.append_cancel_right same]
    exact takesToo.whole

def fits (piece : Piece) (depth : Nat) : Bool := (Value.readWithin depth piece.bytes).isSome

theorem reads_of_fits {piece : Piece} {depth : Nat} (fits : piece.fits depth = true) (rest : Bytes) :
    Value.readWithin depth (piece.bytes ++ rest) = some (piece.value, rest) := by
  rcases piece.reads_or_fails depth with reads | fails
  · exact reads rest
  · have none_read := fails []
    rw [List.append_nil] at none_read
    rw [Piece.fits, none_read] at fits
    contradiction

theorem fails_of_not_fits {piece : Piece} {depth : Nat} (tooDeep : piece.fits depth = false)
    (rest : Bytes) : Value.readWithin depth (piece.bytes ++ rest) = none := by
  rcases piece.reads_or_fails depth with reads | fails
  · have read := reads []
    rw [List.append_nil] at read
    rw [Piece.fits, read] at tooDeep
    contradiction
  · exact fails rest

theorem fits_of_flat {piece : Piece} (flat : piece.value.nests = false) (depth : Nat) :
    piece.fits depth = true := by
  obtain ⟨known, whole⟩ := piece.whole
  rw [fits, readWithin_flat whole flat depth]
  rfl

end Piece
end TenantQueue.Pack
