import TenantQueue.Instant.Parser
import TenantQueue.Instant.Printer
import TenantQueue.Proofs.Instant.Calendar
import TenantQueue.Proofs.Tenant
import Mathlib.Algebra.Group.Nat.Defs

/-! The text of an instant is read back as that instant, and every text that is read gives an instant
of the calendar. -/
namespace TenantQueue.Instant
open Calendar Text

theorem digitsValue_toDigits (value : Nat) : digitsValue (Nat.toDigits 10 value) = value := by
  have read := Tenant.digits?_toDigits value
  unfold Tenant.digits? at read
  split at read
  · contradiction
  · exact Option.some.inj read

theorem isDigit_of_mem_paddedDigits {width value : Nat} {digit : Char}
    (member : digit ∈ paddedDigits width value) : digit.isDigit = true := by
  rcases List.mem_append.mp member with zero | written
  · rw [List.eq_of_mem_replicate zero]
    rfl
  · exact Nat.isDigit_of_mem_toDigits (by decide) (by decide) written

theorem paddedDigits_ne_nil (width value : Nat) : paddedDigits width value ≠ [] := by
  simp [paddedDigits]

theorem length_paddedDigits (width value : Nat) (positive : 0 < width) (fits : value < 10 ^ width) :
    (paddedDigits width value).length = width := by
  have short := (Nat.length_toDigits_le_iff (by decide) positive).mpr fits
  simp only [paddedDigits, List.length_append, List.length_replicate]
  omega

theorem digitsValue_paddedDigits (width value : Nat) :
    digitsValue (paddedDigits width value) = value := by
  have zeros (count : Nat) :
      (List.replicate count '0').foldl (fun sum digit => sum * 10 + (digit.toNat - 48)) 0 = 0 := by
    induction count with
    | zero => rfl
    | succ count ih => exact ih
  have read := digitsValue_toDigits value
  unfold digitsValue at read ⊢
  rw [paddedDigits, List.foldl_append, zeros, read]

theorem isBlank_of_isDigit {character : Char} (digit : character.isDigit = true) :
    isBlank character = false := by
  have bounds : 48 ≤ character.toNat ∧ character.toNat ≤ 57 := by
    simp only [Char.isDigit, Bool.and_eq_true, decide_eq_true_eq] at digit
    exact digit
  simp only [isBlank, Bool.or_eq_false_iff, Bool.and_eq_false_iff, decide_eq_false_iff_not,
    beq_eq_false_iff_ne]
  omega

theorem skipBlanks_cons {first : Char} (rest : Rest) (visible : isBlank first = false) :
    skipBlanks (first :: rest) = first :: rest := by
  simp [skipBlanks, visible]

theorem skipBlanks_paddedDigits (width value : Nat) (rest : Rest) :
    skipBlanks (paddedDigits width value ++ rest) = paddedDigits width value ++ rest := by
  cases written : paddedDigits width value with
  | nil => exact absurd written (paddedDigits_ne_nil width value)
  | cons first others =>
    have member : first ∈ paddedDigits width value := by simp [written]
    exact skipBlanks_cons _ (isBlank_of_isDigit (isDigit_of_mem_paddedDigits member))

def StopsDigits (rest : Rest) : Prop := ∀ first ∈ rest.head?, first.isDigit = false

theorem takeWhile_isDigit_of_stops (rest : Rest) (count : Nat) (stops : StopsDigits rest) :
    (rest.take count).takeWhile Char.isDigit = [] := by
  cases rest with
  | nil => simp
  | cons first others =>
    have here := stops first rfl
    cases count <;> simp [here]

theorem takeWhile_paddedDigits (most width value : Nat) (rest : Rest)
    (fits : (paddedDigits width value).length ≤ most)
    (ends : (paddedDigits width value).length = most ∨ StopsDigits rest) :
    ((paddedDigits width value ++ rest).take most).takeWhile Char.isDigit =
      paddedDigits width value := by
  rw [List.take_append, List.take_of_length_le fits,
    List.takeWhile_append_of_pos fun digit member => isDigit_of_mem_paddedDigits member]
  have nothing : (rest.take (most - (paddedDigits width value).length)).takeWhile Char.isDigit = [] := by
    rcases ends with exact | stops
    · simp [exact]
    · exact takeWhile_isDigit_of_stops rest _ stops
  rw [nothing, List.append_nil]

theorem readNumber_paddedDigits (most width value : Nat) (rest : Rest)
    (fits : (paddedDigits width value).length ≤ most)
    (ends : (paddedDigits width value).length = most ∨ StopsDigits rest) :
    readNumber most (paddedDigits width value ++ rest) = some (value, rest) := by
  have taken := takeWhile_paddedDigits most width value rest fits ends
  have some_left : (paddedDigits width value).isEmpty = false := by
    simp [paddedDigits_ne_nil]
  simp only [readNumber, taken, some_left, digitsValue_paddedDigits, List.drop_left]
  rfl

theorem readNumber_two (value : Nat) (rest : Rest) (small : value < 100) :
    readNumber 2 (paddedDigits 2 value ++ rest) = some (value, rest) := by
  have length := length_paddedDigits 2 value (by decide) small
  exact readNumber_paddedDigits 2 2 value rest (Nat.le_of_eq length) (Or.inl length)

theorem readNext_two (sign : Char) (value : Nat) (rest : Rest) (visible : isBlank sign = false)
    (small : value < 100) :
    readNext sign (sign :: (paddedDigits 2 value ++ rest)) = some (value, rest) := by
  simp only [readNext, skipBlanks_cons _ visible, readSign, if_true, bind, Option.bind,
    skipBlanks_paddedDigits, readNumber_two value rest small]

theorem readYear_yearText (year : Int) (rest : Rest) (stops : StopsDigits rest) :
    readYear (yearText year ++ rest) = some (year, rest) := by
  have signed : readNumber (paddedDigits 4 year.natAbs ++ rest).length
      (paddedDigits 4 year.natAbs ++ rest) = some (year.natAbs, rest) := by
    refine readNumber_paddedDigits _ 4 _ rest ?_ (Or.inr stops)
    simp
  unfold yearText
  split
  · rename_i plain
    have small : year.toNat < 10 ^ 4 := by omega
    have length := length_paddedDigits 4 year.toNat (by decide) small
    have read := readNumber_paddedDigits 4 4 year.toNat rest (Nat.le_of_eq length) (Or.inl length)
    have digits (digit : Char) (rest' : Rest)
        (front : paddedDigits 4 year.toNat ++ rest = digit :: rest') : digit.isDigit = true := by
      cases written : paddedDigits 4 year.toNat with
      | nil => exact absurd written (paddedDigits_ne_nil 4 _)
      | cons first others =>
        rw [written, List.cons_append, List.cons.injEq] at front
        have member : digit ∈ paddedDigits 4 year.toNat := by simp [written, front.1]
        exact isDigit_of_mem_paddedDigits member
    unfold readYear
    split
    · rename_i front
      exact absurd (digits _ _ front) (by decide)
    · rename_i front
      exact absurd (digits _ _ front) (by decide)
    · rw [read]
      exact congrArg (fun number => some (number, rest)) (Int.toNat_of_nonneg plain.1)
  · split
    · rename_i negative
      have number : -(year.natAbs : Int) = year := by omega
      rw [List.cons_append, readYear, signed]
      exact congrArg (fun number => some (number, rest)) number
    · rename_i late positive
      have number : (year.natAbs : Int) = year := by omega
      rw [List.cons_append, readYear, signed]
      exact congrArg (fun number => some (number, rest)) number

theorem readFraction_paddedDigits (width value : Nat) (rest : Rest)
    (length : (paddedDigits width value).length = width) (most : width ≤ 9)
    (stops : StopsDigits rest) :
    readFraction ('.' :: (paddedDigits width value ++ rest)) =
      some (value * Nat.pow 10 (9 - width), rest) := by
  have fits : (paddedDigits width value).length ≤ 9 := Nat.le_trans (Nat.le_of_eq length) most
  have taken := takeWhile_paddedDigits 9 width value rest fits (Or.inr stops)
  have dropped : ((paddedDigits width value ++ rest).drop width).dropWhile Char.isDigit = rest := by
    rw [List.drop_left' length]
    cases rest with
    | nil => rfl
    | cons first others => simp [stops first rfl]
  have some_left : (paddedDigits width value).isEmpty = false := by
    simp [paddedDigits_ne_nil]
  simp only [readFraction, taken, some_left, digitsValue_paddedDigits, length, dropped]
  rfl

theorem readFraction_fractionText (nanos : Nat) (rest : Rest) (small : nanos < 1000000000)
    (stops : StopsDigits rest) (point : rest.head? ≠ some '.') :
    readFraction (fractionText nanos ++ rest) = some (nanos, rest) := by
  unfold fractionText
  split
  · rename_i whole
    subst whole
    rw [List.nil_append, readFraction]
    rintro text rfl
    exact point rfl
  · split
    · rename_i thousandths
      have value : nanos / 1000000 * 1000000 = nanos := by omega
      rw [List.cons_append, readFraction_paddedDigits 3 _ rest
        (length_paddedDigits 3 _ (by decide) (by omega)) (by decide) stops]
      exact congrArg (fun nanos => some (nanos, rest)) value
    · split
      · rename_i millionths
        have value : nanos / 1000 * 1000 = nanos := by omega
        rw [List.cons_append, readFraction_paddedDigits 6 _ rest
          (length_paddedDigits 6 _ (by decide) (by omega)) (by decide) stops]
        exact congrArg (fun nanos => some (nanos, rest)) value
      · rw [List.cons_append, readFraction_paddedDigits 9 _ rest
          (length_paddedDigits 9 _ (by decide) small) (by decide) stops]
        exact congrArg (fun nanos => some (nanos, rest)) (Nat.mul_one nanos)

def writtenParts (date : Date) (hour minute second nanos : Nat) : List Char :=
  yearText date.year ++ '-' :: paddedDigits 2 date.month ++ '-' :: paddedDigits 2 date.day ++
    'T' :: paddedDigits 2 hour ++ ':' :: paddedDigits 2 minute ++ ':' :: paddedDigits 2 second ++
    fractionText nanos ++ ['Z']

theorem stopsDigits_cons {first : Char} (rest : Rest) (other : first.isDigit = false) :
    StopsDigits (first :: rest) := by
  rintro _ ⟨⟩
  exact other

theorem skipBlanks_yearText (year : Int) (rest : Rest) :
    skipBlanks (yearText year ++ rest) = yearText year ++ rest := by
  unfold yearText
  split
  · exact skipBlanks_paddedDigits 4 _ rest
  · split
    · exact skipBlanks_cons _ (by decide)
    · exact skipBlanks_cons _ (by decide)

theorem ofCharacters?_writtenParts (date : Date) (hour minute second nanos : Nat)
    (month : date.month < 100) (day : date.day < 100) (hours : hour < 100) (minutes : minute < 100)
    (seconds : second < 100) (small : nanos < 1000000000) :
    ofCharacters? (writtenParts date hour minute second nanos) =
      ofParts? date hour minute second nanos 0 := by
  simp only [writtenParts, List.append_assoc, List.cons_append, ofCharacters?, skipBlanks_yearText,
    bind, Option.bind]
  rw [readYear_yearText _ _ (stopsDigits_cons _ (by decide))]
  dsimp only
  rw [readNext_two '-' _ _ (by decide) month]
  dsimp only
  rw [readNext_two '-' _ _ (by decide) day]
  simp only [skipBlanks_paddedDigits, readNumber_two _ _ hours]
  rw [readNext_two ':' _ _ (by decide) minutes]
  dsimp only
  rw [readNext_two ':' _ _ (by decide) seconds]
  dsimp only
  rw [readFraction_fractionText nanos _ small (stopsDigits_cons _ (by decide)) (by decide)]
  rfl

theorem day_bounds (seconds : Int) (first : earliest ≤ seconds) (last : seconds ≤ latest) :
    -96465292 ≤ seconds / 86400 ∧ seconds / 86400 ≤ 95026236 := by
  unfold earliest at first
  unfold latest at last
  omega

/-- The parts of a time of day lie in their ranges and make up the second of the day. -/
theorem ofParts?_date (instant : Instant) (second nanos : Nat) (valid : instant.IsValid)
    (ofMinute : (if second = 60 then 59 else second) = (instant.seconds % 60).toNat)
    (fraction : (if second = 60 then nanos + 1000000000 else nanos) = instant.nanos) :
    ofParts? instant.date ((instant.seconds % 86400).toNat / 3600)
      ((instant.seconds % 86400).toNat / 60 % 60) second nanos 0 = some instant := by
  obtain ⟨first, last, _, _⟩ := valid
  obtain ⟨lower, upper⟩ := day_bounds instant.seconds first last
  have years := dateOfDay_year_bounds _ lower upper
  have ofDay : dayNumber instant.date * 86400 +
      (((instant.seconds % 86400).toNat / 3600 * 3600 +
        (instant.seconds % 86400).toNat / 60 % 60 * 60 +
          (if second = 60 then 59 else second) : Nat) : Int) - 0 = instant.seconds := by
    rw [date, dayNumber_dateOfDay, ofMinute]
    omega
  have sixty : second ≤ 60 := by
    split at ofMinute <;> omega
  simp only [ofParts?]
  rw [if_pos ⟨dateOfDay_isValid _, years.1, years.2, by omega, by omega, sixty⟩, ofDay,
    if_pos ⟨first, last⟩, fraction]

theorem ofCharacters?_characters (instant : Instant) (valid : instant.IsValid) :
    ofCharacters? instant.characters = some instant := by
  obtain ⟨monthPositive, monthSmall, dayPositive, daySmall⟩ := dateOfDay_isValid (instant.seconds / 86400)
  have days : instant.date.day < 100 :=
    Nat.lt_of_le_of_lt (Nat.le_trans daySmall (daysInMonth_le _ _)) (by decide)
  have small := valid.2.2.1
  have leapEnds := valid.2.2.2
  have read (second nanos : Nat) (seconds : second < 100) (fraction : nanos < 1000000000) :=
    ofCharacters?_writtenParts instant.date ((instant.seconds % 86400).toNat / 3600)
      ((instant.seconds % 86400).toNat / 60 % 60) second nanos (Nat.lt_of_le_of_lt monthSmall (by decide))
      days (by omega) (by omega) seconds fraction
  by_cases leap : 1000000000 ≤ instant.nanos
  · have sixty : (instant.seconds % 86400).toNat % 60 + 1 = 60 := by
      have ends := leapEnds leap
      omega
    have written : instant.characters = writtenParts instant.date
        ((instant.seconds % 86400).toNat / 3600) ((instant.seconds % 86400).toNat / 60 % 60) 60
        (instant.nanos - 1000000000) := by
      simp only [characters, if_pos leap, sixty, writtenParts]
    rw [written, read 60 _ (by decide) (by omega)]
    refine ofParts?_date instant 60 _ valid ?_ ?_
    · rw [if_pos rfl]
      omega
    · rw [if_pos rfl]
      omega
  · have written : instant.characters = writtenParts instant.date
        ((instant.seconds % 86400).toNat / 3600) ((instant.seconds % 86400).toNat / 60 % 60)
        ((instant.seconds % 86400).toNat % 60) instant.nanos := by
      simp only [characters, if_neg leap, Nat.add_zero, writtenParts]
    have below : ¬(instant.seconds % 86400).toNat % 60 = 60 := by omega
    rw [written, read _ _ (by omega) (by omega)]
    refine ofParts?_date instant _ _ valid ?_ ?_
    · rw [if_neg below]
      omega
    · rw [if_neg below]

theorem ofText?_text (instant : Instant) (valid : instant.IsValid) :
    ofText? instant.text = some instant := by
  rw [ofText?, text, String.toList_ofList]
  exact ofCharacters?_characters instant valid

theorem length_paddedDigits_le (width value : Nat) (small : width ≤ 9) (fits : value < 10 ^ 9) :
    (paddedDigits width value).length ≤ 9 := by
  have short := (Nat.length_toDigits_le_iff (by decide) (by decide)).mpr fits
  simp only [paddedDigits, List.length_append, List.length_replicate]
  omega

theorem length_yearText_le (year : Int) (fits : year.natAbs < 10 ^ 9) :
    (yearText year).length ≤ 10 := by
  unfold yearText
  split
  · exact Nat.le_succ_of_le (length_paddedDigits_le 4 _ (by decide) (by omega))
  · exact Nat.succ_le_succ (length_paddedDigits_le 4 _ (by decide) fits)

theorem length_fractionText_le (nanos : Nat) (fits : nanos < 10 ^ 9) :
    (fractionText nanos).length ≤ 10 := by
  unfold fractionText
  split
  · exact Nat.zero_le _
  · split
    · exact Nat.succ_le_succ (length_paddedDigits_le 3 _ (by decide) (by omega))
    · split
      · exact Nat.succ_le_succ (length_paddedDigits_le 6 _ (by decide) (by omega))
      · exact Nat.succ_le_succ (length_paddedDigits_le 9 _ (by decide) fits)

/-- An instant of the calendar is written in a few characters. -/
theorem length_characters_le (instant : Instant) (valid : instant.IsValid) :
    instant.characters.length ≤ 100 := by
  obtain ⟨first, last, fraction, _⟩ := valid
  obtain ⟨lower, upper⟩ := day_bounds instant.seconds first last
  obtain ⟨lowest, highest⟩ := dateOfDay_year_bounds _ lower upper
  obtain ⟨_, monthSmall, _, daySmall⟩ := dateOfDay_isValid (instant.seconds / 86400)
  have ofMonth := Nat.le_trans daySmall (daysInMonth_le _ _)
  have two (value : Nat) (fits : value < 10 ^ 9) := length_paddedDigits_le 2 value (by decide) fits
  have year := length_yearText_le (dateOfDay (instant.seconds / 86400)).year (by omega)
  have month := two (dateOfDay (instant.seconds / 86400)).month (by omega)
  have day := two (dateOfDay (instant.seconds / 86400)).day (by omega)
  have hour := two ((instant.seconds % 86400).toNat / 3600) (by omega)
  have minute := two ((instant.seconds % 86400).toNat / 60 % 60) (by omega)
  have second := two ((instant.seconds % 86400).toNat % 60 +
    if 1000000000 ≤ instant.nanos then 1 else 0) (by split <;> omega)
  have nanos := length_fractionText_le (if 1000000000 ≤ instant.nanos then instant.nanos - 1000000000
    else instant.nanos) (by split <;> omega)
  simp only [characters, date, List.length_append, List.length_cons, List.length_nil]
  omega

theorem digitsValue_lt (digits : List Char) (all : ∀ digit ∈ digits, digit.isDigit = true) :
    digitsValue digits < 10 ^ digits.length := by
  have folded (sum : Nat) : digits.foldl (fun sum digit => sum * 10 + (digit.toNat - 48)) sum <
      (sum + 1) * 10 ^ digits.length := by
    induction digits generalizing sum with
    | nil => simp
    | cons digit rest ih =>
      obtain ⟨here, others⟩ := List.forall_mem_cons.mp all
      have small : digit.toNat - 48 < 10 := by
        simp only [Char.isDigit, Bool.and_eq_true, decide_eq_true_eq] at here
        have upper : digit.toNat ≤ 57 := here.2
        omega
      calc (digit :: rest).foldl (fun sum digit => sum * 10 + (digit.toNat - 48)) sum
          < (sum * 10 + (digit.toNat - 48) + 1) * 10 ^ rest.length := ih others _
        _ ≤ ((sum + 1) * 10) * 10 ^ rest.length := Nat.mul_le_mul_right _ (by omega)
        _ = (sum + 1) * 10 ^ (digit :: rest).length := by
          rw [List.length_cons, Nat.pow_succ, Nat.mul_assoc, Nat.mul_comm 10]
  simpa [digitsValue] using folded 0

theorem readFraction_lt (text rest : Rest) (nanos : Nat)
    (read : readFraction text = some (nanos, rest)) : nanos < 1000000000 := by
  unfold readFraction at read
  split at read
  · rename_i text
    dsimp only at read
    generalize written : (text.take 9).takeWhile Char.isDigit = digits at read
    split at read
    · contradiction
    · obtain ⟨rfl, _⟩ := Prod.mk.inj (Option.some.inj read)
      have length : digits.length ≤ 9 := by
        rw [← written]
        exact Nat.le_trans (List.takeWhile_sublist _).length_le (List.length_take_le 9 text)
      have small := digitsValue_lt digits fun digit member => by
        rw [← written] at member
        exact List.all_eq_true.mp (List.all_takeWhile) digit member
      calc digitsValue digits * 10 ^ (9 - digits.length)
          < 10 ^ digits.length * 10 ^ (9 - digits.length) :=
            Nat.mul_lt_mul_of_pos_right small (Nat.pow_pos (by decide))
        _ = 10 ^ 9 := by rw [← Nat.pow_add, Nat.add_sub_cancel' length]
  · obtain ⟨rfl, _⟩ := Prod.mk.inj (Option.some.inj read)
    decide

theorem readOffset_mod (text rest : Rest) (offset : Nat)
    (read : readOffset text = some (offset, rest)) : offset % 60 = 0 := by
  unfold readOffset at read
  split at read
  · split at read
    · obtain ⟨⟨minutes, _⟩, _, read⟩ := Option.bind_eq_some_iff.mp read
      dsimp only at read
      split at read
      · obtain ⟨rfl, _⟩ := Prod.mk.inj (Option.some.inj read)
        omega
      · contradiction
    · contradiction
  · contradiction

theorem readZone_mod (text rest : Rest) (offset : Int)
    (read : readZone text = some (offset, rest)) : offset % 60 = 0 := by
  have signed (sign : Int) (text : Rest) (shape : sign = 1 ∨ sign = -1)
      (read : (readOffset text).map (fun part => (sign * (part.1 : Int), part.2)) =
        some (offset, rest)) : offset % 60 = 0 := by
    obtain ⟨⟨size, _⟩, found, same⟩ := Option.map_eq_some_iff.mp read
    obtain ⟨rfl, _⟩ := Prod.mk.inj same
    have whole := readOffset_mod _ _ _ found
    rcases shape with rfl | rfl <;> omega
  unfold readZone at read
  split at read
  · obtain ⟨rfl, _⟩ := Prod.mk.inj (Option.some.inj read)
    rfl
  · obtain ⟨rfl, _⟩ := Prod.mk.inj (Option.some.inj read)
    rfl
  · exact signed 1 _ (Or.inl rfl) (by simpa using read)
  · exact signed (-1) _ (Or.inr rfl) (by simpa using read)
  · exact signed (-1) _ (Or.inr rfl) (by simpa using read)
  · split at read
    · obtain ⟨rfl, _⟩ := Prod.mk.inj (Option.some.inj read)
      rfl
    · contradiction
  · contradiction

theorem ofParts?_isValid (date : Date) (hour minute second nanos : Nat) (offset : Int)
    (instant : Instant) (small : nanos < 1000000000) (whole : offset % 60 = 0)
    (read : ofParts? date hour minute second nanos offset = some instant) : instant.IsValid := by
  by_cases sixty : second = 60
  · simp only [ofParts?, if_pos sixty] at read
    split at read
    · split at read
      · rename_i bounds
        rw [← Option.some.inj read]
        exact ⟨bounds.1, bounds.2, by dsimp only; omega, fun _ => by dsimp only; omega⟩
      · contradiction
    · contradiction
  · simp only [ofParts?, if_neg sixty] at read
    split at read
    · split at read
      · rename_i bounds
        rw [← Option.some.inj read]
        exact ⟨bounds.1, bounds.2, by dsimp only; omega, fun leap => by dsimp only at leap; omega⟩
      · contradiction
    · contradiction

theorem ofText?_isValid (text : String) (instant : Instant) (read : ofText? text = some instant) :
    instant.IsValid := by
  obtain ⟨year, _, read⟩ := Option.bind_eq_some_iff.mp read
  obtain ⟨month, _, read⟩ := Option.bind_eq_some_iff.mp read
  obtain ⟨day, _, read⟩ := Option.bind_eq_some_iff.mp read
  dsimp only at read
  -- Each of the three separators is followed by a time of day.
  split at read
  case h_4 => contradiction
  all_goals
    obtain ⟨_, _, read⟩ := Option.bind_eq_some_iff.mp read
    obtain ⟨hour, _, read⟩ := Option.bind_eq_some_iff.mp read
    obtain ⟨minute, _, read⟩ := Option.bind_eq_some_iff.mp read
    obtain ⟨second, _, read⟩ := Option.bind_eq_some_iff.mp read
    obtain ⟨nanos, fraction, read⟩ := Option.bind_eq_some_iff.mp read
    obtain ⟨offset, zone, read⟩ := Option.bind_eq_some_iff.mp read
    split at read
    · exact ofParts?_isValid _ _ _ _ _ _ _ (readFraction_lt _ _ _ fraction)
        (readZone_mod _ _ _ zone) read
    · contradiction

end TenantQueue.Instant
