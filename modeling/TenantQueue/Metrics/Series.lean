import TenantQueue.Digest
import TenantQueue.Table

/-! Values kept under the values of labels. Labels that read the same when they are put end to end
name one series, which goes by the labels of its first record. -/
namespace TenantQueue

abbrev Labels := List String

def Labels.digest (labels : Labels) : UInt64 := Digest.fnv1a (labels.flatMap Bytes.ofText)

structure Series (α : Type) where
  table : Table UInt64 (Labels × α)

namespace Series
variable {α : Type}

def empty : Series α := ⟨Table.empty⟩

instance : Inhabited (Series α) := ⟨empty⟩

def get? (series : Series α) (labels : Labels) : Option α :=
  (series.table.get? labels.digest).map Prod.snd

/-- The labels under which a sample with `labels` is kept. -/
def title (series : Series α) (labels : Labels) : Labels :=
  (series.table.get? labels.digest).elim labels Prod.fst

def set (series : Series α) (labels : Labels) (value : α) : Series α :=
  ⟨series.table.set labels.digest (series.title labels, value)⟩

/-- The samples in the order of their first records. -/
def toList (series : Series α) : List (Labels × α) := series.table.entries.map Prod.snd

def isEmpty (series : Series α) : Bool := series.table.entries.isEmpty

/-- The sample of labels that are new comes last, under their own name. -/
theorem toList_set_new (series : Series α) (labels : Labels) (value : α)
    (absent : series.get? labels = none) :
    (series.set labels value).toList = series.toList ++ [(labels, value)] := by
  have unused : series.table.get? labels.digest = none := Option.map_eq_none_iff.mp absent
  rw [toList, set, Table.entries_set_absent _ _ _ unused, title, unused, List.map_append]
  rfl

/-- A sample that is there keeps its place and its name. -/
theorem toList_set_known (series : Series α) (labels : Labels) (old value : α)
    (found : series.get? labels = some old) :
    ∃ before title after, series.toList = before ++ (title, old) :: after ∧
      (series.set labels value).toList = before ++ (title, value) :: after := by
  obtain ⟨⟨title, kept⟩, held, rfl⟩ := Option.map_eq_some_iff.mp found
  obtain ⟨before, after, split, entered⟩ := Table.entries_set_present series.table labels.digest
    (title, kept) (series.title labels, value) held
  refine ⟨before.map Prod.snd, title, after.map Prod.snd, ?_, ?_⟩
  · rw [toList, split, List.map_append, List.map_cons]
  · rw [toList, set, entered, List.map_append, List.map_cons, Series.title, held]
    rfl

end Series
end TenantQueue
