import ConsensusLedger.Proofs.Pipeline.History
import ConsensusLedger.Proofs.WaitingSchedules

/-!
The record stream is the handled history. Whatever sinks it has, the stream counts and chains one
object for each record that the calls returned, in their order, and a memory sink holds the last of
these objects.
-/

namespace ConsensusLedger

namespace Node

variable (n : Node) {seed : Octets 48} {sinks : List RecordSink}

/-- After every run over a fresh stream, the count is the number of the records that were returned and
the running hash is the chain of their objects; whatever is appended next is answered with the
running hash that the stream then has; and each memory sink holds the last objects, as many as fit,
each with the running hash of the chain up to and including it. -/
theorem stream_refines_history
    (hstart : n.processor.records = .emitter (.fresh seed sinks)) (ds : List Delivery) :
    let objects := (n.history ds).map (·.object)
    objects.map (·.record) = n.records ds ∧
    ∃ e, (n.after ds).processor.records = .emitter e ∧
      e.appended = (n.records ds).length ∧
      e.head = StreamObject.chain seed objects ∧
      (∀ o, ∃ reports e',
        (RecordStream.emitter e).append o =
          (.ok (StreamObject.chain seed (objects ++ [o]), reports), .emitter e') ∧
        (RecordStream.emitter e').head = StreamObject.chain seed (objects ++ [o])) ∧
      ∀ (i : Nat) (capacity : UInt64), sinks[i]? = some (.memory capacity []) →
        ∃ kept, e.sinks[i]? = some (.memory capacity kept) ∧
          kept <:+ StreamObject.certified seed objects ∧
          kept.length = min (n.records ds).length (max capacity.toNat 1) := by
  intro objects
  have hrecords : objects.map (·.record) = n.records ds := by
    rw [← n.history_records ds, List.map_map]
    rfl
  have hlength : objects.length = (n.records ds).length :=
    (List.length_map _).symm.trans (congrArg List.length hrecords)
  have hafter : (n.after ds).processor.records =
      .emitter ((RecordEmitter.fresh seed sinks).appendAll objects) := by
    rw [n.records_after, hstart, RecordStream.appendAll_emitter]
  have hhead : ((RecordEmitter.fresh seed sinks).appendAll objects).head =
      StreamObject.chain seed objects := RecordEmitter.head_appendAll _ objects
  refine ⟨hrecords, _, hafter, ?_, hhead, fun o => ?_, fun i capacity hsink => ?_⟩
  · rw [RecordEmitter.appended_appendAll, hlength]
    exact Nat.zero_add _
  · rw [StreamObject.chain_concat, ← hhead]
    exact ⟨_, _, rfl, rfl⟩
  · have hkept : ((RecordEmitter.fresh seed sinks).appendAll objects).sinks[i]? =
        some (.memory capacity
          (RecordSink.latest capacity (StreamObject.certified seed objects))) :=
      RecordEmitter.kept_appendAll hsink objects
    refine ⟨_, hkept, RecordSink.latest_suffix capacity _, ?_⟩
    rw [RecordSink.length_latest, StreamObject.length_certified, hlength]

/-- A memory for one record, next to a sink that refuses every record, holds the last of the three
records that a schedule's creation, its last signature and its execution bring. -/
theorem stream_refines_history_approval :
    let sinks : List RecordSink := [.guarded fun _ => some (.encode ""), .memory 1 []]
    let start := { Sample.start with records := .emitter (.fresh (Octets.replicate 48 0) sinks) }
    let n := standard {} Sample.book Sample.verification {} start
    let ds := [Sample.creation, Sample.approval]
    ∃ e kept, (n.after ds).processor.records = .emitter e ∧ e.appended = 3 ∧
      e.sinks[1]? = some (.memory 1 kept) ∧
      kept <:+ StreamObject.certified (Octets.replicate 48 0) ((n.history ds).map (·.object)) ∧
      kept.length = 1 := by
  intro sinks start n ds
  have hlength : (n.records ds).length = 3 := by decide +kernel
  obtain ⟨-, e, hafter, happended, -, -, hsinks⟩ := n.stream_refines_history rfl ds
  obtain ⟨kept, hkept, hsuffix, hcount⟩ := hsinks 1 1 rfl
  rw [hlength] at happended hcount
  exact ⟨e, kept, hafter, happended, hkept, hsuffix, hcount⟩

end Node

end ConsensusLedger
