import ConsensusLedger.Entity
import ConsensusLedger.Timestamp

/-!
The queue of entities by the second at which they expire, in tracking order within a second.
-/

namespace ConsensusLedger

/-- Entities by the second at which they expire. -/
structure ExpiryQueue where
  entries : List (Int64 × EntityId)
  ordered : entries.Pairwise fun a b => a.1 ≤ b.1

namespace ExpiryQueue

def empty : ExpiryQueue := ⟨[], .nil⟩

/-- Places an entry behind all that expire no later. -/
def place (second : Int64) (id : EntityId) : List (Int64 × EntityId) → List (Int64 × EntityId)
  | [] => [(second, id)]
  | e :: rest => if e.1 ≤ second then e :: place second id rest else (second, id) :: e :: rest

theorem mem_place {second : Int64} {id : EntityId} {e : Int64 × EntityId}
    {l : List (Int64 × EntityId)} : e ∈ place second id l ↔ e = (second, id) ∨ e ∈ l := by
  induction l with
  | nil => simp [place]
  | cons f rest ih =>
    simp only [place]
    split
    · simp only [List.mem_cons, ih]
      grind
    · simp only [List.mem_cons]

theorem place_ordered (second : Int64) (id : EntityId) {l : List (Int64 × EntityId)}
    (h : l.Pairwise fun a b => a.1 ≤ b.1) :
    (place second id l).Pairwise fun a b => a.1 ≤ b.1 := by
  induction l with
  | nil => simp [place]
  | cons f rest ih =>
    obtain ⟨hf, hrest⟩ := List.pairwise_cons.1 h
    simp only [place]
    split
    · rename_i hle
      refine List.pairwise_cons.2 ⟨fun e he => ?_, ih hrest⟩
      rcases mem_place.1 he with rfl | he
      · exact hle
      · exact hf e he
    · rename_i hle
      have hlt : second ≤ f.1 := (Int64.le_total second f.1).resolve_right hle
      refine List.pairwise_cons.2 ⟨fun e he => ?_, h⟩
      rcases List.mem_cons.1 he with rfl | he
      · exact hlt
      · exact Int64.le_trans hlt (hf e he)

def track (q : ExpiryQueue) (id : EntityId) (second : Int64) : ExpiryQueue :=
  ⟨place second id q.entries, place_ordered second id q.ordered⟩

/-- An entry is due before the second after `now`; that second is held at the largest one. -/
def isDue (now : Int64) (e : Int64 × EntityId) : Bool := e.1 < saturatingAdd now 1

def drain (q : ExpiryQueue) (now : Int64) : List EntityId × ExpiryQueue :=
  ((q.entries.filter (isDue now)).map (·.2),
    ⟨q.entries.filter fun e => !isDue now e, q.ordered.filter _⟩)

def size (q : ExpiryQueue) : Nat := q.entries.length

def isEmpty (q : ExpiryQueue) : Bool := q.entries.isEmpty

end ExpiryQueue

end ConsensusLedger
