/-! Tables from keys to values, in the order in which the keys were first entered. -/
namespace TenantQueue

structure Table (κ α : Type) where
  entries : List (κ × α)

namespace Table
variable {κ α : Type} [DecidableEq κ]

def empty : Table κ α := ⟨[]⟩

instance : Inhabited (Table κ α) := ⟨empty⟩

private def lookUp (key : κ) : List (κ × α) → Option α
  | [] => none
  | (first, value) :: rest => if first = key then some value else lookUp key rest

private def enter (key : κ) (value : α) : List (κ × α) → List (κ × α)
  | [] => [(key, value)]
  | (first, old) :: rest =>
    if first = key then (key, value) :: rest else (first, old) :: enter key value rest

def get? (table : Table κ α) (key : κ) : Option α := lookUp key table.entries

def contains (table : Table κ α) (key : κ) : Bool := (table.get? key).isSome

/-- A key already entered keeps its place. -/
def set (table : Table κ α) (key : κ) (value : α) : Table κ α := ⟨enter key value table.entries⟩

def erase (table : Table κ α) (key : κ) : Table κ α :=
  ⟨table.entries.filter fun entry => entry.1 ≠ key⟩

omit [DecidableEq κ] in
def keys (table : Table κ α) : List κ := table.entries.map Prod.fst

omit [DecidableEq κ] in
def size (table : Table κ α) : Nat := table.entries.length

@[simp] theorem get?_empty (key : κ) : (empty : Table κ α).get? key = none := rfl

private theorem lookUp_enter (entries : List (κ × α)) (key other : κ) (value : α) :
    lookUp other (enter key value entries) =
      if key = other then some value else lookUp other entries := by
  induction entries with
  | nil => rfl
  | cons entry rest ih =>
    obtain ⟨first, old⟩ := entry
    simp only [enter, lookUp]
    split <;> simp only [lookUp] <;> grind

@[simp] theorem get?_set (table : Table κ α) (key other : κ) (value : α) :
    (table.set key value).get? other = if key = other then some value else table.get? other :=
  lookUp_enter table.entries key other value

private theorem lookUp_filter (entries : List (κ × α)) (key other : κ) :
    lookUp other (entries.filter fun entry => entry.1 ≠ key) =
      if key = other then none else lookUp other entries := by
  induction entries with
  | nil => simp [lookUp]
  | cons entry rest ih =>
    obtain ⟨first, old⟩ := entry
    by_cases here : first = key <;> simp [lookUp, here] <;> grind

@[simp] theorem get?_erase (table : Table κ α) (key other : κ) :
    (table.erase key).get? other = if key = other then none else table.get? other :=
  lookUp_filter table.entries key other

private theorem enter_same (entries : List (κ × α)) (key : κ) (value : α)
    (found : lookUp key entries = some value) : enter key value entries = entries := by
  induction entries with
  | nil => contradiction
  | cons entry rest ih =>
    obtain ⟨first, old⟩ := entry
    rw [lookUp] at found
    rw [enter]
    split at found
    · rename_i here
      rw [if_pos here, here, Option.some.inj found]
    · rename_i elsewhere
      rw [if_neg elsewhere, ih found]

theorem set_same (table : Table κ α) (key : κ) (value : α) (found : table.get? key = some value) :
    table.set key value = table :=
  congrArg mk (enter_same table.entries key value found)

private theorem enter_absent (entries : List (κ × α)) (key : κ) (value : α)
    (absent : lookUp key entries = none) : enter key value entries = entries ++ [(key, value)] := by
  induction entries with
  | nil => rfl
  | cons entry rest ih =>
    obtain ⟨first, old⟩ := entry
    rw [lookUp] at absent
    split at absent
    · contradiction
    · rename_i elsewhere
      rw [enter, if_neg elsewhere, ih absent, List.cons_append]

theorem entries_set_absent (table : Table κ α) (key : κ) (value : α) (absent : table.get? key = none) :
    (table.set key value).entries = table.entries ++ [(key, value)] :=
  enter_absent table.entries key value absent

private theorem enter_present (entries : List (κ × α)) (key : κ) (old value : α)
    (found : lookUp key entries = some old) :
    ∃ before after, entries = before ++ (key, old) :: after ∧
      enter key value entries = before ++ (key, value) :: after := by
  induction entries with
  | nil => contradiction
  | cons entry rest ih =>
    obtain ⟨first, other⟩ := entry
    rw [lookUp] at found
    split at found
    · rename_i here
      obtain rfl := Option.some.inj found
      exact ⟨[], rest, by rw [here]; rfl, by rw [enter, if_pos here]; rfl⟩
    · rename_i elsewhere
      obtain ⟨before, after, split, entered⟩ := ih found
      exact ⟨(first, other) :: before, after, by rw [split]; rfl,
        by rw [enter, if_neg elsewhere, entered]; rfl⟩

theorem entries_set_present (table : Table κ α) (key : κ) (old value : α)
    (found : table.get? key = some old) :
    ∃ before after, table.entries = before ++ (key, old) :: after ∧
      (table.set key value).entries = before ++ (key, value) :: after :=
  enter_present table.entries key old value found

private theorem enter_enter (entries : List (κ × α)) (key : κ) (first second : α) :
    enter key second (enter key first entries) = enter key second entries := by
  induction entries with
  | nil => simp [enter]
  | cons entry rest ih =>
    obtain ⟨other, old⟩ := entry
    by_cases here : other = key <;> simp [enter, here, ih]

theorem set_set (table : Table κ α) (key : κ) (first second : α) :
    (table.set key first).set key second = table.set key second :=
  congrArg mk (enter_enter table.entries key first second)

private theorem filter_enter (entries : List (κ × α)) (key : κ) (value : α)
    (absent : lookUp key entries = none) :
    (enter key value entries).filter (fun entry => entry.1 ≠ key) = entries := by
  induction entries with
  | nil => simp [enter]
  | cons entry rest ih =>
    obtain ⟨first, old⟩ := entry
    rw [lookUp] at absent
    split at absent
    · contradiction
    · rename_i elsewhere
      rw [enter, if_neg elsewhere, List.filter_cons_of_pos (by simpa using elsewhere), ih absent]

theorem erase_set (table : Table κ α) (key : κ) (value : α) (absent : table.get? key = none) :
    (table.set key value).erase key = table :=
  congrArg mk (filter_enter table.entries key value absent)

private theorem lookUp_eq_none_iff (entries : List (κ × α)) (key : κ) :
    lookUp key entries = none ↔ key ∉ entries.map Prod.fst := by
  induction entries with
  | nil => simp [lookUp]
  | cons entry rest ih =>
    obtain ⟨first, value⟩ := entry
    by_cases here : first = key
    · simp [lookUp, here]
    · simp [lookUp, here, ih, Ne.symm here]

theorem get?_eq_none_iff (table : Table κ α) (key : κ) :
    table.get? key = none ↔ key ∉ table.keys :=
  lookUp_eq_none_iff table.entries key

private theorem mem_iff_lookUp (entries : List (κ × α)) (key : κ) (value : α)
    (distinct : (entries.map Prod.fst).Nodup) :
    (key, value) ∈ entries ↔ lookUp key entries = some value := by
  induction entries with
  | nil => simp [lookUp]
  | cons entry rest ih =>
    obtain ⟨first, old⟩ := entry
    obtain ⟨fresh, tail⟩ := List.nodup_cons.mp distinct
    by_cases here : first = key
    · subst here
      have absent : (first, value) ∉ rest := fun listed => fresh (List.mem_map.mpr ⟨_, listed, rfl⟩)
      simp [lookUp, absent, eq_comm]
    · simp [lookUp, here, Ne.symm here, ih tail]

theorem mem_entries (table : Table κ α) (key : κ) (value : α) (distinct : table.keys.Nodup) :
    (key, value) ∈ table.entries ↔ table.get? key = some value :=
  mem_iff_lookUp table.entries key value distinct

theorem mem_keys_set (table : Table κ α) (key other : κ) (value : α) :
    other ∈ (table.set key value).keys ↔ other = key ∨ other ∈ table.keys := by
  have before := get?_eq_none_iff table other
  have after := get?_eq_none_iff (table.set key value) other
  rw [get?_set] at after
  by_cases same : key = other
  · subst same
    simpa using after
  · rw [if_neg same, before] at after
    have differ : other ≠ key := fun equal => same equal.symm
    simpa [differ] using (not_congr after).symm

private theorem enter_nodup (entries : List (κ × α)) (key : κ) (value : α)
    (distinct : (entries.map Prod.fst).Nodup) : ((enter key value entries).map Prod.fst).Nodup := by
  induction entries with
  | nil => simp [enter]
  | cons entry rest ih =>
    obtain ⟨first, old⟩ := entry
    simp only [List.map_cons, List.nodup_cons] at distinct
    simp only [enter]
    split
    · rename_i here
      subst here
      exact List.nodup_cons.mpr distinct
    · rename_i elsewhere
      refine List.nodup_cons.mpr ⟨?_, ih distinct.2⟩
      intro entered
      rcases (mem_keys_set ⟨rest⟩ key first value).mp entered with same | inside
      · exact elsewhere same
      · exact distinct.1 inside

theorem keys_set_nodup (table : Table κ α) (key : κ) (value : α) (distinct : table.keys.Nodup) :
    (table.set key value).keys.Nodup :=
  enter_nodup table.entries key value distinct

theorem keys_erase_nodup (table : Table κ α) (key : κ) (distinct : table.keys.Nodup) :
    (table.erase key).keys.Nodup :=
  distinct.sublist (List.filter_sublist.map Prod.fst)

end Table
end TenantQueue
