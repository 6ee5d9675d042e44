import TenantQueue.Table

/-! Sets whose members carry a score. One index finds the score of a member, the other
lists the members by score and, at equal scores, by their own order. -/
namespace TenantQueue

structure ScoredSet (σ μ : Type) where
  scores : Table μ σ
  ordered : List (σ × μ)

namespace ScoredSet
variable {σ μ : Type}

def empty : ScoredSet σ μ := ⟨Table.empty, []⟩

instance : Inhabited (ScoredSet σ μ) := ⟨empty⟩

/-- By score, then by member. -/
def precedence [Ord σ] [Ord μ] (first second : σ × μ) : Ordering :=
  (compare first.1 second.1).then (compare first.2 second.2)

/-- Puts an entry before the first that comes after it. -/
def place [Ord σ] [Ord μ] (entry : σ × μ) : List (σ × μ) → List (σ × μ)
  | [] => [entry]
  | first :: rest =>
    match precedence entry first with
    | .lt => entry :: first :: rest
    | .eq => first :: rest
    | .gt => first :: place entry rest

def displace [Ord σ] [Ord μ] (entry : σ × μ) (entries : List (σ × μ)) : List (σ × μ) :=
  entries.filter fun other => precedence entry other != .eq

def size (set : ScoredSet σ μ) : Nat := set.scores.size

def isEmpty (set : ScoredSet σ μ) : Bool := set.scores.entries.isEmpty

def toList (set : ScoredSet σ μ) : List (σ × μ) := set.ordered

def members (set : ScoredSet σ μ) : List μ := set.ordered.map Prod.snd

def takeWhile (passes : σ → Bool) (set : ScoredSet σ μ) : List μ :=
  (set.ordered.takeWhile fun entry => passes entry.1).map Prod.snd

section
variable [DecidableEq μ]

def score? (set : ScoredSet σ μ) (member : μ) : Option σ := set.scores.get? member

variable [Ord σ] [Ord μ]

def others (set : ScoredSet σ μ) (member : μ) : List (σ × μ) :=
  match set.score? member with
  | some old => displace (old, member) set.ordered
  | none => set.ordered

/-- A member already present gets the new score. -/
def insert (set : ScoredSet σ μ) (member : μ) (score : σ) : ScoredSet σ μ :=
  ⟨set.scores.set member score, place (score, member) (set.others member)⟩

/-- A member already present keeps its score. Tells whether the member is new. -/
def insertIfNew (set : ScoredSet σ μ) (member : μ) (score : σ) : Bool × ScoredSet σ μ :=
  if (set.score? member).isSome then (false, set) else (true, set.insert member score)

/-- Adds to a member's score, zero for one not present. Tells the new score. -/
def increase [Add σ] [OfNat σ 0] (set : ScoredSet σ μ) (member : μ) (amount : σ) :
    σ × ScoredSet σ μ :=
  let score := (set.score? member).getD 0 + amount
  (score, set.insert member score)

def erase (set : ScoredSet σ μ) (member : μ) : ScoredSet σ μ :=
  match set.score? member with
  | some old => ⟨set.scores.erase member, displace (old, member) set.ordered⟩
  | none => set

omit [Ord σ] [Ord μ] in
def popFirst? (set : ScoredSet σ μ) : Option (μ × ScoredSet σ μ) :=
  match set.ordered with
  | [] => none
  | (_, member) :: rest => some (member, ⟨set.scores.erase member, rest⟩)

end

end ScoredSet
end TenantQueue
