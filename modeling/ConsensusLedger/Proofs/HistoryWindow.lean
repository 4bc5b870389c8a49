import ConsensusLedger.Proofs.Handling.Window

/-!
The histories forget like a plain sliding window. After a purge they answer as the list of all past
handlings would, of which those count that are less than the time to live old.
-/

namespace ConsensusLedger

theorem Status.isClassifiable_iff {status : Status} : status.isClassifiable = true ↔
    status ≠ .invalidNodeAccount ∧ status ≠ .invalidPayerSignature := by
  cases status <;> simp [Status.isClassifiable]

namespace Histories

variable {ttl last : Int64} {live : List Sighting} {h : Histories}

/-- The verdict on an identifier, from the handlings that the histories stand for. -/
theorem Tracks.duplicity_eq (htracks : Tracks ttl last live h) (id : TransactionId)
    (member : MemberId) : h.duplicity id member =
      if ∃ s ∈ live, s.id = id ∧ s.member = member then .nodeDuplicate
      else if ∃ s ∈ live, s.id = id ∧ s.status ≠ .invalidNodeAccount ∧
          s.status ≠ .invalidPayerSignature then .duplicate
      else .believedUnique := by
  rw [duplicity_eq_known, htracks.told, Observation.duplicity]
  congr 1
  · simp [Sighting.observation]
  · simp [Sighting.observation, Status.isClassifiable_iff]

/-- The identifiers that are kept are those of the handlings that the histories stand for. -/
theorem Tracks.size_eq (htracks : Tracks ttl last live h) :
    h.size = (live.map (·.id)).toFinset.card := by
  have hids : (h.observed.map Prod.fst).toFinset = (live.map (·.id)).toFinset := by
    ext id
    have hlisted : id ∈ h.observed.map Prod.fst ↔ h.known id ≠ [] := by
      rw [← not_iff_not, ← Index.get?_eq_none_iff, not_not, known]
      cases hfound : h.get? id with
      | none =>
        have hnone : Index.get? h.observed id = none := hfound
        simp [hnone]
      | some os =>
        have hne : os ≠ [] := fun hnil => htracks.compact.occupied id (hnil ▸ hfound)
        have hsome : Index.get? h.observed id = some os := hfound
        simp [hsome, hne]
    rw [List.mem_toFinset, List.mem_toFinset, hlisted, htracks.told]
    simp [List.filter_eq_nil_iff]
  rw [← hids, List.toFinset_card_of_nodup htracks.compact.keyed, List.length_map]
  rfl

/-- A purge answers by how much the number of identifiers falls. -/
theorem Compact.purge_count (hcompact : h.Compact) (now : Timestamp) :
    (h.purge now).1 + (h.purge now).2.size = h.size :=
  (Compact.forgetAll (h := { h with expiries := h.expiries.dropWhile fun e => e.1 ≤ now.seconds })
    ⟨hcompact.1, hcompact.2⟩ _ _).2

/-- A call that changes the histories. -/
inductive Call where
  | observe (s : Sighting)
  | purge (now : Timestamp)

namespace Call

def time : Call → Timestamp
  | .observe s => s.time
  | .purge now => now

def sighting? : Call → Option Sighting
  | .observe s => some s
  | .purge _ => none

/-- What a call makes of the histories. -/
def applied (h : Histories) : Call → Histories
  | .observe s => h.observe s.id s.member s.status s.time
  | .purge now => (h.purge now).2

/-- What a call makes of a plain window. -/
def slid (ttl : Int64) (live : List Sighting) : Call → List Sighting
  | .observe s => live ++ [s]
  | .purge now => live.filter (·.isLive ttl now)

end Call

/-- The histories after calls, one after the other. -/
def after (ttl : Int64) (calls : List Call) : Histories := calls.foldl Call.applied (.empty ttl)

/-- The plain window after the same calls. -/
def windowAfter (ttl : Int64) (calls : List Call) : List Sighting := calls.foldl (Call.slid ttl) []

theorem Tracks.applied (htracks : Tracks ttl last live h) (hpositive : 0 < ttl.toInt) (call : Call)
    (hlast : last.toInt ≤ call.time.seconds.toInt) :
    Tracks ttl call.time.seconds (call.slid ttl live) (call.applied h) := by
  cases call with
  | observe s => exact htracks.observe hlast
  | purge now => exact htracks.purge hpositive hlast

/-- The times of the calls never decrease, to the second. -/
def Ordered (calls : List Call) : Prop :=
  calls.Pairwise fun c d => c.time.seconds ≤ d.time.seconds

/-- The histories stand for the plain window, at the time of the last call. -/
theorem tracks_after (hpositive : 0 < ttl.toInt) {calls : List Call} {call : Call}
    (hordered : Ordered (calls ++ [call])) :
    ∃ last, last.toInt ≤ call.time.seconds.toInt ∧
      Tracks ttl last (windowAfter ttl calls) (after ttl calls) := by
  induction calls using List.reverseRecOn generalizing call with
  | nil => exact ⟨call.time.seconds, le_rfl, tracks_empty ttl _⟩
  | append_singleton calls previous ih =>
    obtain ⟨hcalls, -, hlast⟩ := List.pairwise_append.1 hordered
    obtain ⟨last, hle, htracks⟩ := ih hcalls
    refine ⟨previous.time.seconds, ?_, ?_⟩
    · rw [← Int64.le_iff_toInt_le]
      exact hlast previous (by simp) call (by simp)
    · rw [windowAfter, after, List.foldl_concat, List.foldl_concat]
      exact htracks.applied hpositive previous hle

/-- What is live at a purge is live at every earlier one. -/
theorem filter_windowAfter {calls : List Call} {now : Timestamp}
    (hordered : Ordered (calls ++ [.purge now])) :
    (windowAfter ttl calls).filter (·.isLive ttl now) =
      (calls.filterMap Call.sighting?).filter (·.isLive ttl now) := by
  induction calls using List.reverseRecOn with
  | nil => rfl
  | append_singleton calls previous ih =>
    obtain ⟨hcalls, -, hlast⟩ := List.pairwise_append.1 hordered
    have hskip : Ordered (calls ++ [.purge now]) := by
      apply List.Pairwise.sublist _ hordered
      simp
    rw [windowAfter, List.foldl_concat, List.filterMap_append, List.filter_append, ← ih hskip]
    cases previous with
    | observe s => exact List.filter_append _ _
    | purge earlier =>
      have hle : earlier.seconds.toInt ≤ now.seconds.toInt := by
        rw [← Int64.le_iff_toInt_le]
        exact hlast (.purge earlier) List.mem_concat_self (.purge now) (List.mem_singleton_self _)
      have hlive (s : Sighting) : (s.isLive ttl now && s.isLive ttl earlier) = s.isLive ttl now := by
        simp only [Sighting.isLive, ← Bool.decide_and, decide_eq_decide]
        omega
      simp only [Call.slid, List.filter_filter, hlive]
      simp [Call.sighting?, windowAfter]

open Call in
/-- The histories answer like a plain sliding window. Let the calls come in an order in which their
times, to the second, never decrease, the last one a purge. Of all past handlings, those are live
whose second, plus the time to live, is still ahead. After the purge, an identifier is a duplicate of
the member if that member had a live handling of it; else a duplicate if it had a live handling that
does not blame the submitting member alone; else it is believed unique. What is kept are the
identifiers of the live handlings, and the purge answers how many it dropped. -/
theorem purge_slides_window {ttl : Int64} (hpositive : 0 < ttl.toInt) {calls : List Call}
    {now : Timestamp} (hordered : Ordered (calls ++ [.purge now])) :
    let past := calls.filterMap sighting?
    let live := past.filter fun s => now.seconds.toInt < s.time.seconds.toInt + ttl.toInt
    let kept := ((after ttl calls).purge now).2
    (∀ id member, kept.duplicity id member =
      if ∃ s ∈ live, s.id = id ∧ s.member = member then .nodeDuplicate
      else if ∃ s ∈ live, s.id = id ∧ s.status ≠ .invalidNodeAccount ∧
          s.status ≠ .invalidPayerSignature then .duplicate
      else .believedUnique) ∧
    kept.size = (live.map (·.id)).toFinset.card ∧
    ((after ttl calls).purge now).1 + kept.size = (after ttl calls).size := by
  intro past live kept
  obtain ⟨last, hlast, htracks⟩ := tracks_after hpositive hordered
  have hlive : (windowAfter ttl calls).filter (·.isLive ttl now) = live :=
    filter_windowAfter hordered
  have hkept : Tracks ttl now.seconds live kept :=
    hlive ▸ htracks.purge hpositive hlast
  exact ⟨hkept.duplicity_eq, hkept.size_eq, htracks.compact.purge_count now⟩

/-- The identifier of a transaction that starts at the given second. -/
def sampleId (second : Int64) : TransactionId := ⟨.ofNum 1001, .ofSeconds second, false⟩

/-- Two transactions are handled in one second, and the first of them once more, by another member
for its own fault. -/
def sampleCalls : List Call :=
  [.observe ⟨sampleId 1, 0, .ok, .ofSeconds 100⟩, .observe ⟨sampleId 2, 0, .ok, .ofSeconds 100⟩,
    .purge (.ofSeconds 104), .observe ⟨sampleId 1, 1, .invalidNodeAccount, .ofSeconds 105⟩]

/-- Ten seconds after the first handlings, the third is all that is left. -/
theorem sampleCalls_purge_slides :
    let kept := ((after 10 sampleCalls).purge (.ofSeconds 110)).2
    0 < (10 : Int64).toInt ∧ Ordered (sampleCalls ++ [.purge (.ofSeconds 110)]) ∧
      kept.duplicity (sampleId 1) 1 = .nodeDuplicate ∧
      kept.duplicity (sampleId 1) 0 = .believedUnique ∧
      kept.duplicity (sampleId 2) 0 = .believedUnique ∧ kept.size = 1 ∧
      ((after 10 sampleCalls).purge (.ofSeconds 110)).1 = 1 := by
  have hpositive : 0 < (10 : Int64).toInt := by decide
  have hordered : Ordered (sampleCalls ++ [.purge (.ofSeconds 110)]) := by
    unfold Ordered
    decide
  obtain ⟨hverdict, hsize, hcount⟩ := purge_slides_window hpositive hordered
  have hone : ((after 10 sampleCalls).purge (.ofSeconds 110)).2.size = 1 := hsize.trans (by decide)
  have htwo : (after 10 sampleCalls).size = 2 := by decide
  exact ⟨hpositive, hordered, (hverdict _ _).trans (by decide), (hverdict _ _).trans (by decide),
    (hverdict _ _).trans (by decide), hone, by omega⟩

end Histories

end ConsensusLedger
