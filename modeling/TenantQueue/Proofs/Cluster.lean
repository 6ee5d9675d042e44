import TenantQueue.Engine.Basic
import TenantQueue.Proofs.KeyLayout
import Mathlib.Data.List.Basic

/-! Where a cluster keeps the keys of a queue. A key is placed by its tag, the text between its first
pair of braces, so keys with the same tag lie together. The braces around the name of the queue are
the first ones only where the prefix has no opening brace, and a tag that is empty does not count. -/
namespace TenantQueue

namespace Cluster

/-- The text between the first opening brace and the first closing brace behind it. -/
def tag? (key : List Char) : Option (List Char) :=
  match key.dropWhile (· ≠ '\x7b') with
  | [] => none
  | _ :: behind => if '\x7d' ∈ behind then some (behind.takeWhile (· ≠ '\x7d')) else none

/-- What a cluster places a key by. A key without a tag, or with an empty one, is placed by all of
its text. -/
def placedBy (key : String) : String :=
  match tag? key.toList with
  | none | some [] => key
  | some (first :: rest) => String.ofList (first :: rest)

private theorem differs_of_not_mem {separator : Char} {front : List Char} (clean : separator ∉ front)
    (first : Char) (listed : first ∈ front) : decide (first ≠ separator) = true := by
  rw [decide_eq_true_eq]
  rintro rfl
  exact clean listed

theorem dropWhile_of_not_mem {separator : Char} {front rest : List Char} (clean : separator ∉ front) :
    (front ++ separator :: rest).dropWhile (· ≠ separator) = separator :: rest := by
  rw [List.dropWhile_append_of_pos (differs_of_not_mem clean), List.dropWhile_cons_of_neg (by simp)]

theorem takeWhile_of_not_mem {separator : Char} {front rest : List Char} (clean : separator ∉ front) :
    (front ++ separator :: rest).takeWhile (· ≠ separator) = front := by
  rw [List.takeWhile_append_of_pos (differs_of_not_mem clean), List.takeWhile_cons_of_neg (by simp),
    List.append_nil]

theorem tag?_eq_some {before tag after : List Char} (outside : '\x7b' ∉ before)
    (inside : '\x7d' ∉ tag) : tag? (before ++ '\x7b' :: (tag ++ '\x7d' :: after)) = some tag := by
  simp only [tag?, dropWhile_of_not_mem outside, takeWhile_of_not_mem inside]
  exact if_pos (List.mem_append_right tag List.mem_cons_self)

theorem placedBy_of_empty_tag {key : String} (found : tag? key.toList = some []) :
    placedBy key = key := by
  simp only [placedBy, found]

theorem placedBy_of_tag {key : String} {tag : List Char} (found : tag? key.toList = some tag)
    (filled : tag ≠ []) : placedBy key = String.ofList tag := by
  cases tag with
  | nil => contradiction
  | cons first rest => simp only [placedBy, found]

end Cluster

namespace KeyLayout

inductive Holds (layout : KeyLayout) (queue : String) : String → Prop where
  | pending (tenant : Tenant) : Holds layout queue (layout.pending queue tenant)
  | active : Holds layout queue (layout.active queue)
  | processing (tenant : Tenant) : Holds layout queue (layout.processing queue tenant)
  | payload (fingerprint : Fingerprint) : Holds layout queue (layout.payload queue fingerprint)

/-- A closing brace follows the first opening brace of the keys at once. That one stands in the prefix,
or else before the name of the queue. -/
def ClosedAtOnce (layout : KeyLayout) (queue : String) : Prop :=
  (∃ before after, '\x7b' ∉ before ∧ layout.keyPrefix.toList = before ++ '\x7b' :: '\x7d' :: after) ∨
    '\x7b' ∉ layout.keyPrefix.toList ∧ (queue = "" ∨ queue.toList.head? = some '\x7d')

variable {layout : KeyLayout} {queue key : String}

theorem toList_opening (layout : KeyLayout) (queue : String) :
    (layout.opening queue).toList = layout.keyPrefix.toList ++ ':' :: '\x7b' :: queue.toList := by
  simp [opening]

theorem toList_of_holds (held : layout.Holds queue key) :
    ∃ ending, key.toList = (layout.opening queue).toList ++ '\x7d' :: ending := by
  cases held with
  | pending tenant => exact ⟨_, toList_key layout queue (.pending tenant)⟩
  | active => exact ⟨_, toList_key layout queue .active⟩
  | processing tenant => exact ⟨_, toList_key layout queue (.processing tenant)⟩
  | payload fingerprint =>
    exact ⟨":payload:".toList ++ fingerprint.text.toList, by simp [payload, base, opening]⟩

theorem active_ne_pending (layout : KeyLayout) (queue : String) (tenant : Tenant) :
    layout.active queue ≠ layout.pending queue tenant := by
  intro same
  have keys : layout.key queue .active = layout.key queue (.pending tenant) := same
  exact nomatch (key_inj.mp keys).2

theorem closedAtOnce_of_brace {before name : List Char} (outside : '\x7b' ∉ before)
    (parts : layout.keyPrefix.toList = before ++ '\x7b' :: name) :
    layout.ClosedAtOnce queue ↔ name.head? = some '\x7d' := by
  constructor
  · rintro (⟨other, after, otherOutside, otherParts⟩ | ⟨absent, -⟩)
    · have behind := congrArg (List.dropWhile (· ≠ '\x7b')) (parts.symm.trans otherParts)
      rw [Cluster.dropWhile_of_not_mem outside, Cluster.dropWhile_of_not_mem otherOutside] at behind
      rw [(List.cons.inj behind).2, List.head?_cons]
    · exact absurd (parts ▸ List.mem_append_right before List.mem_cons_self) absent
  · intro head
    obtain ⟨after, rfl⟩ := List.head?_eq_some_iff.mp head
    exact Or.inl ⟨before, after, outside, parts⟩

theorem closedAtOnce_of_plain_prefix (plain : '\x7b' ∉ layout.keyPrefix.toList) :
    layout.ClosedAtOnce queue ↔ queue = "" ∨ queue.toList.head? = some '\x7d' := by
  constructor
  · rintro (⟨before, after, -, parts⟩ | ⟨-, clash⟩)
    · exact absurd (parts ▸ List.mem_append_right before List.mem_cons_self) plain
    · exact clash
  · exact fun clash => Or.inr ⟨plain, clash⟩

private theorem tag_of_opening {before behind : List Char} (outside : '\x7b' ∉ before)
    (split : (layout.opening queue).toList = before ++ '\x7b' :: behind) :
    ∃ tag, (∀ key, layout.Holds queue key → Cluster.tag? key.toList = some tag) ∧
      (tag = [] ↔ (behind ++ ['\x7d']).head? = some '\x7d') := by
  -- The tag ends with the name of the queue or before it, whatever a key holds behind that name.
  have closed : '\x7d' ∈ behind ++ ['\x7d'] := List.mem_append_right behind List.mem_cons_self
  obtain ⟨tag, after, cut, inside⟩ := List.eq_append_cons_of_mem closed
  refine ⟨tag, ?_, ?_⟩
  · intro key held
    obtain ⟨ending, text⟩ := toList_of_holds held
    have parts : key.toList = before ++ '\x7b' :: (tag ++ '\x7d' :: (after ++ ending)) := by
      calc key.toList = before ++ '\x7b' :: ((behind ++ ['\x7d']) ++ ending) := by
            rw [text, split]
            simp
        _ = before ++ '\x7b' :: (tag ++ '\x7d' :: (after ++ ending)) := by
            rw [cut]
            simp
    rw [parts]
    exact Cluster.tag?_eq_some outside inside
  · rw [cut]
    cases tag with
    | nil => simp
    | cons first rest =>
      have differ : first ≠ '\x7d' := by
        rintro rfl
        exact inside List.mem_cons_self
      simp [differ]

theorem tag_of_keys (layout : KeyLayout) (queue : String) :
    ∃ tag, (∀ key, layout.Holds queue key → Cluster.tag? key.toList = some tag) ∧
      (tag = [] ↔ layout.ClosedAtOnce queue) := by
  by_cases brace : '\x7b' ∈ layout.keyPrefix.toList
  · obtain ⟨before, name, parts, outside⟩ := List.eq_append_cons_of_mem brace
    have split : (layout.opening queue).toList =
        before ++ '\x7b' :: (name ++ ':' :: '\x7b' :: queue.toList) := by
      rw [toList_opening, parts]
      simp
    obtain ⟨tag, found, empty_iff⟩ := tag_of_opening outside split
    refine ⟨tag, found, ?_⟩
    rw [empty_iff, closedAtOnce_of_brace outside parts]
    cases name with
    | nil => simp
    | cons first rest => simp
  · have split : (layout.opening queue).toList =
        (layout.keyPrefix.toList ++ [':']) ++ '\x7b' :: queue.toList := by
      rw [toList_opening]
      simp
    obtain ⟨tag, found, empty_iff⟩ := tag_of_opening (by simp [brace]) split
    refine ⟨tag, found, ?_⟩
    rw [empty_iff, closedAtOnce_of_plain_prefix brace, ← String.toList_eq_nil_iff]
    cases queue.toList with
    | nil => simp
    | cons first rest => simp

theorem tag_of_plain_names (plain : '\x7b' ∉ layout.keyPrefix.toList) (inside : '\x7d' ∉ queue.toList)
    (held : layout.Holds queue key) : Cluster.tag? key.toList = some queue.toList := by
  obtain ⟨ending, text⟩ := toList_of_holds held
  have parts : key.toList =
      (layout.keyPrefix.toList ++ [':']) ++ '\x7b' :: (queue.toList ++ '\x7d' :: ending) := by
    rw [text, toList_opening]
    simp
  rw [parts]
  exact Cluster.tag?_eq_some (by simp [plain]) inside

/-- The keys of a queue lie together exactly if no closing brace follows their first opening brace at
once, and else each key is placed by all of its text. Where the prefix has no opening brace and the
name of the queue no closing one, all keys are placed by that name. -/
theorem keys_together_iff (layout : KeyLayout) (queue : String) :
    ((∀ key other, layout.Holds queue key → layout.Holds queue other →
        Cluster.placedBy key = Cluster.placedBy other) ↔ ¬layout.ClosedAtOnce queue) ∧
    ((∀ key, layout.Holds queue key → Cluster.placedBy key = key) ↔ layout.ClosedAtOnce queue) ∧
    ('\x7b' ∉ layout.keyPrefix.toList → '\x7d' ∉ queue.toList → queue ≠ "" →
      ∀ key, layout.Holds queue key → Cluster.placedBy key = queue) := by
  obtain ⟨tag, found, empty_iff⟩ := tag_of_keys layout queue
  have alone (closed : layout.ClosedAtOnce queue) (key : String) (held : layout.Holds queue key) :
      Cluster.placedBy key = key := by
    obtain rfl := empty_iff.mpr closed
    exact Cluster.placedBy_of_empty_tag (found key held)
  have together (filled : ¬layout.ClosedAtOnce queue) (key : String) (held : layout.Holds queue key) :
      Cluster.placedBy key = String.ofList tag :=
    Cluster.placedBy_of_tag (found key held) (mt empty_iff.mp filled)
  have differ := active_ne_pending layout queue default
  refine ⟨⟨?_, ?_⟩, ⟨?_, alone⟩, ?_⟩
  · intro same closed
    have places := same _ _ .active (.pending default)
    rw [alone closed _ .active, alone closed _ (.pending default)] at places
    exact differ places
  · intro filled key other held otherHeld
    rw [together filled key held, together filled other otherHeld]
  · intro own
    by_contra filled
    have places := (together filled _ .active).trans (together filled _ (.pending default)).symm
    rw [own _ .active, own _ (.pending default)] at places
    exact differ places
  · intro plain inside named key held
    have nonempty : queue.toList ≠ [] := mt String.toList_eq_nil_iff.mp named
    rw [Cluster.placedBy_of_tag (tag_of_plain_names plain inside held) nonempty, String.ofList_toList]

/-- The engine takes a queue whose name begins with a closing brace, and its keys lie apart. -/
theorem closing_brace_parts_keys :
    Config.standard.validate = .ok () ∧
    Engine.standard.check "\x7dx" ⟨"t", ⟨1⟩, [], default, 0⟩ = .ok () ∧
    Cluster.placedBy (standard.active "\x7dx") ≠ Cluster.placedBy (standard.pending "\x7dx" ⟨1⟩) :=
  ⟨rfl, rfl, by decide⟩

end KeyLayout
end TenantQueue
