import TenantQueue.Tenant

/-! A tenant's name is the decimal text of its number and is read back as that tenant, so two
tenants never share a name. It holds nothing but digits and a minus sign. -/
namespace TenantQueue.Tenant

theorem digits?_toDigits (value : Nat) : digits? (Nat.toDigits 10 value) = some value := by
  have nonempty : (Nat.toDigits 10 value).isEmpty = false := by simp
  have digits : (Nat.toDigits 10 value).all Char.isDigit = true := by
    rw [List.all_eq_true]
    intro digit member
    exact Nat.isDigit_of_mem_toDigits (by decide) (by decide) member
  have read : (Nat.toDigits 10 value).foldl (fun sum digit => sum * 10 + (digit.toNat - 48)) 0 =
      value := by
    have known := Nat.ofDigitChars_ten_toDigits (n := value)
    rw [Nat.ofDigitChars_eq_foldl] at known
    simp only [Nat.mul_comm 10] at known
    exact known
  unfold digits?
  rw [nonempty, digits, read]
  rfl

theorem signed?_toDigits (value : Nat) : signed? (Nat.toDigits 10 value) = some (value : Int) := by
  have read := digits?_toDigits value
  have digits (digit : Char) (member : digit ∈ Nat.toDigits 10 value) : digit.isDigit = true :=
    Nat.isDigit_of_mem_toDigits (by decide) (by decide) member
  revert read digits
  generalize Nat.toDigits 10 value = written
  intro read digits
  unfold signed?
  split
  · have minus := digits '-' (by simp)
    contradiction
  · have plus := digits '+' (by simp)
    contradiction
  · rw [read]
    rfl

theorem signed?_repr (number : Int) : signed? (Int.repr number).toList = some number := by
  cases number with
  | ofNat value =>
    simp only [Int.repr, Nat.toList_repr]
    exact signed?_toDigits value
  | negSucc value =>
    have text : (Int.repr (Int.negSucc value)).toList = '-' :: Nat.toDigits 10 (value + 1) := by
      simp [Int.repr]
    rw [text, signed?, digits?_toDigits]
    change some (-((value + 1 : Nat) : Int)) = some (Int.negSucc value)
    rw [Int.negSucc_eq]
    rfl

theorem ofInt_toInt (tenant : Tenant) : ofInt tenant.toInt = tenant := by
  simp [ofInt, toInt]

theorem ofName?_name (tenant : Tenant) : ofName? tenant.name = some tenant := by
  have lower : -0x8000000000000000 ≤ tenant.toInt := Int64.le_toInt tenant.number
  have upper : tenant.toInt < 0x8000000000000000 := Int64.toInt_lt tenant.number
  unfold ofName? name
  rw [signed?_repr]
  change (if _ then some (ofInt tenant.toInt) else none) = some tenant
  rw [if_pos ⟨lower, upper⟩, ofInt_toInt]

theorem name_injective {first second : Tenant} (same : first.name = second.name) :
    first = second := by
  have read := congrArg ofName? same
  simpa [ofName?_name] using read

@[simp] theorem name_inj {first second : Tenant} : first.name = second.name ↔ first = second :=
  ⟨name_injective, congrArg name⟩

theorem mem_name {tenant : Tenant} {character : Char} (member : character ∈ tenant.name.toList) :
    character = '-' ∨ character.isDigit = true := by
  have digits (value : Nat) (digit : character ∈ Nat.toDigits 10 value) : character.isDigit = true :=
    Nat.isDigit_of_mem_toDigits (by decide) (by decide) digit
  unfold name at member
  cases number : tenant.toInt with
  | ofNat value =>
    rw [number, Int.repr, Nat.toList_repr] at member
    exact Or.inr (digits value member)
  | negSucc value =>
    have text : (Int.repr (Int.negSucc value)).toList = '-' :: Nat.toDigits 10 (value + 1) := by
      simp [Int.repr]
    rw [number, text] at member
    cases member with
    | head => exact Or.inl rfl
    | tail _ digit => exact Or.inr (digits (value + 1) digit)

end TenantQueue.Tenant
