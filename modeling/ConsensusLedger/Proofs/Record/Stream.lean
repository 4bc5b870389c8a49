import ConsensusLedger.Record.Stream

/-!
A stream over many appends. The running hash is the chain of what was appended, the count its length,
and a memory sink keeps the end of it, whatever the other sinks refuse.
-/

namespace ConsensusLedger

namespace StreamObject

/-- Objects with the running hash of the chain up to and including each of them. -/
def certified (seed : Octets 48) (objects : List StreamObject) : List StreamedRecord :=
  objects.mapIdx fun i o => ⟨o, chain seed (objects.take (i + 1))⟩

@[simp] theorem length_certified (seed : Octets 48) (objects : List StreamObject) :
    (certified seed objects).length = objects.length := List.length_mapIdx

theorem chain_concat (seed : Octets 48) (objects : List StreamObject) (o : StreamObject) :
    chain seed (objects ++ [o]) = Digest.link (chain seed objects) o.content := by
  rw [chain, List.map_append]
  exact Digest.chain_concat seed _ _

theorem certified_cons (seed : Octets 48) (o : StreamObject) (objects : List StreamObject) :
    certified seed (o :: objects) =
      ⟨o, Digest.link seed o.content⟩ :: certified (Digest.link seed o.content) objects := by
  rw [certified, List.mapIdx_cons]
  rfl

end StreamObject

open StreamObject

namespace RecordSink

/-- The latest of some records, at most as many as a capacity allows. -/
def latest (capacity : UInt64) (streamed : List StreamedRecord) : List StreamedRecord :=
  streamed.drop (streamed.length - max capacity.toNat 1)

@[simp] theorem latest_nil (capacity : UInt64) : latest capacity [] = [] := List.drop_nil

theorem latest_suffix (capacity : UInt64) (streamed : List StreamedRecord) :
    latest capacity streamed <:+ streamed := List.drop_suffix _ _

theorem length_latest (capacity : UInt64) (streamed : List StreamedRecord) :
    (latest capacity streamed).length = min streamed.length (max capacity.toNat 1) := by
  rw [latest, List.length_drop]
  omega

/-- The oldest record makes room when the memory is full. -/
theorem keep_latest (capacity : UInt64) (streamed : List StreamedRecord) (s : StreamedRecord) :
    keep capacity (latest capacity streamed) s = latest capacity (streamed ++ [s]) := by
  rw [keep, length_latest, latest, latest, List.length_append, List.length_singleton, List.drop_drop]
  by_cases hfull : max capacity.toNat 1 ≤ streamed.length
  · have hroom : streamed.length + 1 - max capacity.toNat 1 =
        streamed.length - max capacity.toNat 1 + 1 := by omega
    rw [if_pos (Nat.min_eq_right hfull), hroom, List.drop_append_of_le_length (by omega)]
  · rw [if_neg (by omega), Nat.sub_eq_zero_of_le (by omega), Nat.sub_eq_zero_of_le (by omega)]
    rfl

theorem foldl_keep (capacity : UInt64) (streamed : List StreamedRecord) :
    streamed.foldl (keep capacity) [] = latest capacity streamed := by
  have hfrom : ∀ earlier, streamed.foldl (keep capacity) (latest capacity earlier) =
      latest capacity (earlier ++ streamed) := by
    induction streamed with
    | nil => intro earlier; rw [List.append_nil]; rfl
    | cons s rest ih =>
      intro earlier
      rw [List.foldl_cons, keep_latest, ih, List.append_assoc, List.singleton_append]
  simpa only [latest_nil, List.nil_append] using hfrom []

end RecordSink

namespace RecordEmitter

/-- A stream that nothing was appended to yet, with its sinks. -/
def fresh (seed : Octets 48) (sinks : List RecordSink) : RecordEmitter :=
  { ofSeed seed with sinks := sinks }

/-- The stream after some objects were appended in turn. -/
def appendAll (e : RecordEmitter) (objects : List StreamObject) : RecordEmitter :=
  objects.foldl (fun e o => (e.append o).2.2) e

theorem head_appendAll (e : RecordEmitter) (objects : List StreamObject) :
    (e.appendAll objects).head = chain e.head objects := by
  induction objects generalizing e with
  | nil => rfl
  | cons o rest ih => exact ih _

theorem appended_appendAll (e : RecordEmitter) (objects : List StreamObject) :
    (e.appendAll objects).appended = e.appended + objects.length := by
  induction objects generalizing e with
  | nil => rfl
  | cons o rest ih =>
    have hone : (e.append o).2.2.appended = e.appended + 1 := rfl
    rw [appendAll, List.foldl_cons, ← appendAll, ih, hone, List.length_cons]
    omega

/-- One append to a memory sink, for which the other sinks do not matter. -/
theorem sinks_append {e : RecordEmitter} {i : Nat} {capacity : UInt64} {kept : List StreamedRecord}
    (h : e.sinks[i]? = some (.memory capacity kept)) (o : StreamObject) :
    (e.append o).2.2.sinks[i]? =
      some (.memory capacity (RecordSink.keep capacity kept ⟨o, Digest.link e.head o.content⟩)) := by
  simp only [append, List.getElem?_map, h, Option.map_some]
  rfl

theorem sinks_appendAll {e : RecordEmitter} {i : Nat} {capacity : UInt64}
    {kept : List StreamedRecord} (h : e.sinks[i]? = some (.memory capacity kept))
    (objects : List StreamObject) :
    (e.appendAll objects).sinks[i]? = some (.memory capacity
      ((certified e.head objects).foldl (RecordSink.keep capacity) kept)) := by
  induction objects generalizing e kept with
  | nil => exact h
  | cons o rest ih =>
    rw [certified_cons, List.foldl_cons]
    exact ih (sinks_append h o)

/-- A memory sink that was attached from the start keeps the latest objects with their running
hashes. -/
theorem kept_appendAll {e : RecordEmitter} {i : Nat} {capacity : UInt64}
    (h : e.sinks[i]? = some (.memory capacity [])) (objects : List StreamObject) :
    (e.appendAll objects).sinks[i]? =
      some (.memory capacity (RecordSink.latest capacity (certified e.head objects))) := by
  rw [sinks_appendAll h, RecordSink.foldl_keep]

end RecordEmitter

namespace RecordStream

/-- The stream after some objects were offered in turn. -/
def appendAll (s : RecordStream) (objects : List StreamObject) : RecordStream :=
  objects.foldl (fun s o => (s.append o).2) s

theorem appendAll_append (s : RecordStream) (xs ys : List StreamObject) :
    s.appendAll (xs ++ ys) = (s.appendAll xs).appendAll ys := List.foldl_append

theorem appendAll_emitter (e : RecordEmitter) (objects : List StreamObject) :
    (emitter e).appendAll objects = emitter (e.appendAll objects) := by
  induction objects generalizing e with
  | nil => rfl
  | cons o rest ih => exact ih _

end RecordStream

end ConsensusLedger
