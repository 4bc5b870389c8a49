import ConsensusLedger.Proofs.Handling.History
import Mathlib.Data.Finset.Card
import Mathlib.Data.List.TakeWhile

/-!
The histories as a sliding window. What is remembered of an identifier, and the queue of expiries
beside it, stand for the list of all handlings that were live at the last purge; each call makes of
this list what it makes of the histories.
-/

namespace ConsensusLedger

namespace Index

variable {κ ν : Type} [DecidableEq κ] {m : Index κ ν} {k : κ} {v : ν}

/-- No key occurs twice. -/
def Keyed (m : Index κ ν) : Prop := (m.map Prod.fst).Nodup

theorem get?_eq_none_iff : m.get? k = none ↔ k ∉ m.map Prod.fst := by
  induction m with
  | nil => simp [get?]
  | cons e rest ih =>
    rw [get?, List.map_cons, List.mem_cons]
    by_cases hk : k = e.1 <;> simp [hk, ih]

theorem not_mem_erase (m : Index κ ν) (k : κ) : k ∉ (m.erase k).map Prod.fst := by
  rw [← get?_eq_none_iff, get?_erase, if_pos rfl]

theorem Keyed.erase (h : m.Keyed) (k : κ) : (m.erase k).Keyed :=
  h.sublist (List.filter_sublist.map _)

theorem Keyed.insert (h : m.Keyed) (k : κ) (v : ν) : (m.insert k v).Keyed :=
  List.nodup_cons.2 ⟨not_mem_erase m k, h.erase k⟩

theorem Keyed.length_erase (h : m.Keyed) (hk : m.get? k = some v) :
    (m.erase k).length + 1 = m.length := by
  induction m with
  | nil => cases hk
  | cons e rest ih =>
    obtain ⟨hnew, hrest⟩ := List.nodup_cons.1 h
    have hfilter : Index.erase (e :: rest) k = if k ≠ e.1 then e :: Index.erase rest k
        else Index.erase rest k := by
      simp [Index.erase, List.filter_cons]
    rw [hfilter]
    by_cases hke : k = e.1
    · have hsame : Index.erase rest k = rest := by
        refine List.filter_eq_self.2 fun f hf => decide_eq_true fun heq => hnew ?_
        rw [← hke, heq]
        exact List.mem_map_of_mem hf
      rw [if_neg (not_not_intro hke), hsame, List.length_cons]
    · rw [get?, if_neg hke] at hk
      rw [if_pos hke, List.length_cons, List.length_cons, ih hrest hk]

end Index

/-- A handling that the histories were told of. -/
structure Sighting where
  id : TransactionId
  member : MemberId
  status : Status
  time : Timestamp
  deriving DecidableEq, Repr

namespace Sighting

def observation (s : Sighting) : Observation := ⟨s.member, s.time, s.status.isClassifiable⟩

/-- The handling is less than `ttl` seconds old. -/
def isLive (ttl : Int64) (now : Timestamp) (s : Sighting) : Bool :=
  now.seconds.toInt < s.time.seconds.toInt + ttl.toInt

end Sighting

namespace Histories

variable {h : Histories} {id : TransactionId} {cutoff : Int64}

/-- What is remembered of an identifier. -/
def known (h : Histories) (id : TransactionId) : List Observation := (h.get? id).getD []

theorem duplicity_eq_known (h : Histories) (id : TransactionId) (member : MemberId) :
    h.duplicity id member = Observation.duplicity (h.known id) member := by
  rw [duplicity, known]
  cases h.get? id <;> rfl

/-- Every identifier is listed once, and only if something is remembered of it. -/
structure Compact (h : Histories) : Prop where
  keyed : Index.Keyed h.observed
  occupied : ∀ id, h.get? id ≠ some []

theorem get?_observe (h : Histories) (s : Sighting) (id : TransactionId) :
    (h.observe s.id s.member s.status s.time).get? id =
      if id = s.id then some (h.known s.id ++ [s.observation]) else h.get? id :=
  Index.get?_insert _ _ _ _

theorem known_observe (h : Histories) (s : Sighting) (id : TransactionId) :
    (h.observe s.id s.member s.status s.time).known id =
      if id = s.id then h.known id ++ [s.observation] else h.known id := by
  rw [known, get?_observe]
  by_cases hid : id = s.id
  · simp [hid]
  · rw [if_neg hid, if_neg hid, known]

theorem Compact.observe (hcompact : h.Compact) (s : Sighting) :
    (h.observe s.id s.member s.status s.time).Compact := by
  refine ⟨hcompact.keyed.insert _ _, fun id => ?_⟩
  rw [get?_observe]
  split
  · simp
  · exact hcompact.occupied id

/-- What is forgotten of an identifier: nothing is known of it, all, or a part. -/
inductive Forgets (h : Histories) (id : TransactionId) (cutoff : Int64) : Bool × Histories → Prop
  | unknown (hunknown : h.get? id = none) : Forgets h id cutoff (false, h)
  | all {os : List Observation} (hos : h.get? id = some os)
      (hkept : os.filter (fun o => cutoff < o.time.seconds) = []) :
      Forgets h id cutoff (true, { h with observed := h.observed.erase id })
  | part {os : List Observation} (hos : h.get? id = some os)
      (hkept : os.filter (fun o => cutoff < o.time.seconds) ≠ []) :
      Forgets h id cutoff (false, { h with
        observed := h.observed.insert id (os.filter fun o => cutoff < o.time.seconds) })

theorem forget_forgets (h : Histories) (id : TransactionId) (cutoff : Int64) :
    Forgets h id cutoff (h.forget id cutoff) := by
  unfold forget
  split
  · rename_i hunknown
    exact .unknown hunknown
  · rename_i os hos
    by_cases hkept : os.filter (fun o => cutoff < o.time.seconds) = []
    · simpa [hkept] using Forgets.all hos hkept
    · simpa [hkept] using Forgets.part hos hkept

section Forget

variable {done : Bool × Histories} (hdone : Forgets h id cutoff done)
include hdone

theorem Forgets.get?_self : done.2.get? id = ((h.get? id).map
    fun os => os.filter fun o => cutoff < o.time.seconds).filter (· ≠ []) := by
  cases hdone with
  | unknown hunknown => simp [hunknown]
  | all hos hkept =>
    rw [hos, Option.map_some, hkept]
    exact (Index.get?_erase _ _ _).trans (if_pos rfl)
  | part hos hkept =>
    rw [hos, Option.map_some, Option.filter_some, if_pos (decide_eq_true hkept)]
    exact (Index.get?_insert _ _ _ _).trans (if_pos rfl)

theorem Forgets.get?_of_ne {id' : TransactionId} (hid : id' ≠ id) :
    done.2.get? id' = h.get? id' := by
  cases hdone with
  | unknown => rfl
  | all => exact (Index.get?_erase _ _ _).trans (if_neg hid)
  | part => exact (Index.get?_insert _ _ _ _).trans (if_neg hid)

theorem Forgets.known (id' : TransactionId) : done.2.known id' =
    if id' = id then (h.known id').filter fun o => cutoff < o.time.seconds else h.known id' := by
  by_cases hid : id' = id
  · subst hid
    rw [if_pos rfl, Histories.known, hdone.get?_self, Histories.known]
    cases h.get? id' with
    | none => rfl
    | some os =>
      by_cases hkept : os.filter (fun o => cutoff < o.time.seconds) = [] <;>
        simp [Option.filter_some, hkept]
  · rw [if_neg hid, Histories.known, hdone.get?_of_ne hid, Histories.known]

theorem Forgets.compact (hcompact : h.Compact) : done.2.Compact := by
  constructor
  · cases hdone with
    | unknown => exact hcompact.keyed
    | all => exact hcompact.keyed.erase id
    | part => exact hcompact.keyed.insert id _
  · intro id'
    by_cases hid : id' = id
    · subst hid
      rw [hdone.get?_self]
      intro hempty
      simp at hempty
    · rw [hdone.get?_of_ne hid]
      exact hcompact.occupied id'

/-- The number of identifiers falls by one if all is forgotten of this one. -/
theorem Forgets.size (hcompact : h.Compact) :
    (if done.1 then 1 else 0) + done.2.size = h.size := by
  cases hdone with
  | unknown => simp
  | all hos =>
    have hlength := hcompact.keyed.length_erase hos
    simp only [if_true, Histories.size]
    omega
  | part hos =>
    have hlength := hcompact.keyed.length_erase hos
    simp only [Histories.size, Index.insert, List.length_cons]
    simpa using hlength

end Forget

theorem known_forgetAll (h : Histories) (cutoff : Int64) (ids : List TransactionId)
    (id : TransactionId) : (forgetAll cutoff h ids).2.known id =
      if id ∈ ids then (h.known id).filter fun o => cutoff < o.time.seconds else h.known id := by
  induction ids generalizing h with
  | nil => simp [forgetAll]
  | cons first rest ih =>
    have hstep : (forgetAll cutoff h (first :: rest)).2 =
        (forgetAll cutoff (h.forget first cutoff).2 rest).2 := rfl
    rw [hstep, ih, (forget_forgets h first cutoff).known]
    by_cases hfirst : id = first <;> by_cases hrest : id ∈ rest <;> simp [hfirst, hrest]

/-- To forget keeps the histories compact, and counts the identifiers of which all is forgotten. -/
theorem Compact.forgetAll (hcompact : h.Compact) (cutoff : Int64) (ids : List TransactionId) :
    (forgetAll cutoff h ids).2.Compact ∧
      (forgetAll cutoff h ids).1 + (forgetAll cutoff h ids).2.size = h.size := by
  induction ids generalizing h with
  | nil => exact ⟨hcompact, Nat.zero_add _⟩
  | cons first rest ih =>
    have hforgets := forget_forgets h first cutoff
    obtain ⟨hrest, hcount⟩ := ih (hforgets.compact hcompact)
    have hsize := hforgets.size hcompact
    refine ⟨hrest, ?_⟩
    simp only [Histories.forgetAll]
    omega

/-- The histories stand for a list of handlings, in the order in which they were told, none of them
later than the second `last`. A handling whose expiry can come is queued until it has. -/
structure Tracks (ttl last : Int64) (live : List Sighting) (h : Histories) : Prop where
  compact : h.Compact
  kept : h.ttl = ttl
  told : ∀ id, h.known id = (live.filter (·.id = id)).map (·.observation)
  queued : ∀ s ∈ live, s.time.seconds.toInt + ttl.toInt < 0x8000000000000000 →
    (saturatingAdd s.time.seconds ttl, s.id) ∈ h.expiries
  ordered : h.expiries.Pairwise (·.1.toInt ≤ ·.1.toInt)
  stamped : ∀ e ∈ h.expiries, ∃ second, second.toInt ≤ last.toInt ∧ e.1 = saturatingAdd second ttl

variable {ttl last : Int64} {live : List Sighting}

theorem tracks_empty (ttl last : Int64) : Tracks ttl last [] (empty ttl) :=
  ⟨⟨List.nodup_nil, fun _ => nofun⟩, rfl, fun _ => rfl, nofun, .nil, nofun⟩

theorem saturatingAdd_le {a b : Int64} (c : Int64) (hab : a.toInt ≤ b.toInt) :
    (saturatingAdd a c).toInt ≤ (saturatingAdd b c).toInt := by
  have ha := toInt_saturatingAdd a c
  have hb := toInt_saturatingAdd b c
  have hlow := (saturatingAdd b c).le_toInt
  have hhigh := (saturatingAdd a c).toInt_lt
  omega

/-- An expiry that can come is the sum of the second and the time to live. -/
theorem toInt_expiry {second : Int64} (hpositive : 0 < ttl.toInt)
    (hexpiry : second.toInt + ttl.toInt < 0x8000000000000000) :
    (saturatingAdd second ttl).toInt = second.toInt + ttl.toInt := by
  have hsum := toInt_saturatingAdd second ttl
  have hlow := second.le_toInt
  omega

/-- A handling joins those that the histories stand for. -/
theorem Tracks.observe (htracks : Tracks ttl last live h) {s : Sighting}
    (hlast : last.toInt ≤ s.time.seconds.toInt) :
    Tracks ttl s.time.seconds (live ++ [s]) (h.observe s.id s.member s.status s.time) := by
  have hexpiries : (h.observe s.id s.member s.status s.time).expiries =
      h.expiries ++ [(saturatingAdd s.time.seconds ttl, s.id)] := by
    rw [← htracks.kept]
    rfl
  constructor
  case compact => exact htracks.compact.observe s
  case kept => exact htracks.kept
  case told =>
    intro id
    rw [known_observe, htracks.told]
    by_cases hid : id = s.id
    · simp [hid]
    · simp [hid, Ne.symm hid]
  case queued =>
    intro s' hs' hexpiry
    rw [hexpiries, List.mem_append]
    rcases List.mem_append.1 hs' with hs' | hs'
    · exact .inl (htracks.queued s' hs' hexpiry)
    · rw [List.mem_singleton] at hs'
      simp [hs']
  case ordered =>
    rw [hexpiries, List.pairwise_append]
    refine ⟨htracks.ordered, List.pairwise_singleton _ _, fun e he f hf => ?_⟩
    obtain ⟨second, hsecond, hstamp⟩ := htracks.stamped e he
    rw [List.mem_singleton] at hf
    rw [hf, hstamp]
    exact saturatingAdd_le ttl (hsecond.trans hlast)
  case stamped =>
    intro e he
    rw [hexpiries, List.mem_append, List.mem_singleton] at he
    rcases he with he | rfl
    · obtain ⟨second, hsecond, hstamp⟩ := htracks.stamped e he
      exact ⟨second, hsecond.trans hlast, hstamp⟩
    · exact ⟨s.time.seconds, le_rfl, rfl⟩

section Queue

variable {queue : List (Int64 × TransactionId)} {now : Int64} {e : Int64 × TransactionId}

theorem due_of_mem_takeWhile (he : e ∈ queue.takeWhile fun e => e.1 ≤ now) : e.1 ≤ now := by
  simpa using List.mem_takeWhile_imp he

/-- The due entries of an ordered queue are all at its front. -/
theorem mem_takeWhile_of_due (hordered : queue.Pairwise (·.1.toInt ≤ ·.1.toInt)) (he : e ∈ queue)
    (hdue : e.1 ≤ now) : e ∈ queue.takeWhile fun e => e.1 ≤ now := by
  induction queue with
  | nil => cases he
  | cons first rest ih =>
    obtain ⟨hfirst, hrest⟩ := List.pairwise_cons.1 hordered
    have hfirstDue : first.1 ≤ now := by
      rcases List.mem_cons.1 he with rfl | he
      · exact hdue
      · rw [Int64.le_iff_toInt_le] at hdue ⊢
        exact (hfirst e he).trans hdue
    rw [List.takeWhile_cons, if_pos (decide_eq_true hfirstDue), List.mem_cons]
    rcases List.mem_cons.1 he with he | he
    · exact .inl he
    · exact .inr (ih hrest he)

/-- What is not due stays in the queue. -/
theorem mem_dropWhile_of_not_due (he : e ∈ queue) (hlater : ¬e.1 ≤ now) :
    e ∈ queue.dropWhile fun e => e.1 ≤ now := by
  have hsplit : e ∈ (queue.takeWhile fun e => e.1 ≤ now) ++ queue.dropWhile fun e => e.1 ≤ now := by
    rwa [List.takeWhile_append_dropWhile]
  exact (List.mem_append.1 hsplit).resolve_left fun hfront => hlater (due_of_mem_takeWhile hfront)

end Queue

/-- Once an expiry is due, the cutoff of the purge is where handlings stop being live. -/
theorem cutoff_lt_iff {second : Int64} {now : Timestamp} (hpositive : 0 < ttl.toInt)
    (hdue : saturatingAdd second ttl ≤ now.seconds) (time : Timestamp) :
    saturatingSub now.seconds ttl < time.seconds ↔
      now.seconds.toInt < time.seconds.toInt + ttl.toInt := by
  rw [Int64.le_iff_toInt_le] at hdue
  rw [Int64.lt_iff_toInt_lt]
  have hsecond := second.le_toInt
  have hnow := now.seconds.toInt_lt
  have httl := ttl.toInt_lt
  have hsum := toInt_saturatingAdd second ttl
  have hdifference := toInt_saturatingSub now.seconds ttl
  omega

/-- A handling that is not live has its expiry at the front of the queue. -/
theorem Tracks.due_of_not_live (htracks : Tracks ttl last live h) (hpositive : 0 < ttl.toInt)
    {now : Timestamp} {s : Sighting} (hs : s ∈ live) (hexpired : ¬s.isLive ttl now = true) :
    s.id ∈ (h.expiries.takeWhile fun e => e.1 ≤ now.seconds).map (·.2) := by
  have hold : s.time.seconds.toInt + ttl.toInt ≤ now.seconds.toInt := by
    simpa [Sighting.isLive] using hexpired
  have hnow := now.seconds.toInt_lt
  have hentry := htracks.queued s hs (by omega)
  have hdue : saturatingAdd s.time.seconds ttl ≤ now.seconds := by
    rw [Int64.le_iff_toInt_le, toInt_expiry hpositive (by omega)]
    exact hold
  exact List.mem_map_of_mem (mem_takeWhile_of_due htracks.ordered hentry hdue)

/-- The expiry of a handling that is live is not due. -/
theorem not_due_of_live {now : Timestamp} {s : Sighting} (hpositive : 0 < ttl.toInt)
    (hexpiry : s.time.seconds.toInt + ttl.toInt < 0x8000000000000000)
    (hlive : s.isLive ttl now = true) : ¬saturatingAdd s.time.seconds ttl ≤ now.seconds := by
  rw [Int64.le_iff_toInt_le, toInt_expiry hpositive hexpiry, not_le]
  simpa [Sighting.isLive] using hlive

/-- With a due expiry, a purge keeps the observations of the handlings that are live. -/
theorem filter_observation {now : Timestamp} {second : Int64} (hpositive : 0 < ttl.toInt)
    (hdue : saturatingAdd second ttl ≤ now.seconds) (xs : List Sighting) :
    (xs.map (·.observation)).filter (fun o => saturatingSub now.seconds ttl < o.time.seconds) =
      (xs.filter (·.isLive ttl now)).map (·.observation) := by
  rw [List.filter_map]
  congr 1
  apply List.filter_congr
  intro s _
  have hlive := cutoff_lt_iff hpositive hdue s.time
  simp [Sighting.isLive, Sighting.observation, hlive]

/-- A purge leaves the handlings that are live. -/
theorem Tracks.purge (htracks : Tracks ttl last live h) (hpositive : 0 < ttl.toInt)
    {now : Timestamp} (hlast : last.toInt ≤ now.seconds.toInt) :
    Tracks ttl now.seconds (live.filter (·.isLive ttl now)) (h.purge now).2 := by
  let due := h.expiries.takeWhile fun e => e.1 ≤ now.seconds
  let rest := h.expiries.dropWhile fun e => e.1 ≤ now.seconds
  have hpurge : (h.purge now).2 = (forgetAll (saturatingSub now.seconds ttl)
      { h with expiries := rest } (due.map (·.2))).2 := by
    rw [← htracks.kept]
    rfl
  obtain ⟨httl, hexpiries⟩ := forgetAll_frame (saturatingSub now.seconds ttl)
    { h with expiries := rest } (due.map (·.2))
  have hcompact : Compact { h with expiries := rest } := ⟨htracks.compact.1, htracks.compact.2⟩
  have hrest : rest.Sublist h.expiries := List.dropWhile_sublist _
  rw [hpurge]
  constructor
  case compact => exact (hcompact.forgetAll _ _).1
  case kept => exact httl.trans htracks.kept
  case told =>
    intro id
    have hknown : Histories.known { h with expiries := rest } id = h.known id := rfl
    rw [known_forgetAll, hknown, htracks.told, List.filter_comm]
    by_cases hid : id ∈ due.map (·.2)
    · obtain ⟨e, he, -⟩ := List.mem_map.1 hid
      obtain ⟨second, -, hstamp⟩ := htracks.stamped e ((List.takeWhile_sublist _).subset he)
      have hdue : e.1 ≤ now.seconds := due_of_mem_takeWhile he
      rw [if_pos hid, filter_observation hpositive (hstamp ▸ hdue)]
    · rw [if_neg hid]
      congr 1
      symm
      apply List.filter_eq_self.2
      intro s hs
      obtain ⟨hs, hsid⟩ := List.mem_filter.1 hs
      by_contra hexpired
      have hfront := htracks.due_of_not_live hpositive hs hexpired
      rw [of_decide_eq_true hsid] at hfront
      exact hid hfront
  case queued =>
    intro s hs hexpiry
    obtain ⟨hs, hlive⟩ := List.mem_filter.1 hs
    rw [hexpiries]
    apply mem_dropWhile_of_not_due (htracks.queued s hs hexpiry)
    exact not_due_of_live hpositive hexpiry hlive
  case ordered =>
    rw [hexpiries]
    exact htracks.ordered.sublist hrest
  case stamped =>
    rw [hexpiries]
    intro e he
    obtain ⟨second, hsecond, hstamp⟩ := htracks.stamped e (hrest.subset he)
    exact ⟨second, hsecond.trans hlast, hstamp⟩

end Histories

end ConsensusLedger
