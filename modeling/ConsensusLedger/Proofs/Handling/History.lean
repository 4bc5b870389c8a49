import ConsensusLedger.Handling.History
import ConsensusLedger.Proofs.Timestamp

/-!
What the histories remember. A handling that counts against the payer makes its identifier a
duplicate until a purge whose second has reached the handling's own by the number of seconds that
handlings are kept.
-/

namespace ConsensusLedger

theorem Duplicity.eq_believedUnique {verdict : Duplicity} (hseen : verdict ≠ .duplicate)
    (hnode : verdict ≠ .nodeDuplicate) : verdict = .believedUnique := by
  cases verdict with
  | believedUnique => rfl
  | duplicate => exact absurd rfl hseen
  | nodeDuplicate => exact absurd rfl hnode

namespace Histories

variable {h : Histories} {id : TransactionId} {time : Timestamp} {ttl : Int64}

/-- A handling of the identifier at this time is remembered, and counts against the payer. -/
def Remembers (h : Histories) (id : TransactionId) (time : Timestamp) : Prop :=
  ∃ os, h.get? id = some os ∧ ∃ o ∈ os, o.classifiable = true ∧ o.time = time

theorem Remembers.duplicity (hseen : h.Remembers id time) (member : MemberId) :
    h.duplicity id member ≠ .believedUnique := by
  obtain ⟨os, hos, o, ho, hclassifiable, -⟩ := hseen
  have hany : os.any (·.classifiable) = true := List.any_eq_true.2 ⟨o, ho, hclassifiable⟩
  unfold Histories.duplicity
  rw [hos]
  simp only [Observation.duplicity, hany, ↓reduceIte]
  split <;> exact nofun

theorem observe_remembers (h : Histories) (id : TransactionId) (member : MemberId) {status : Status}
    (hstatus : status.isClassifiable = true) (time : Timestamp) :
    (h.observe id member status time).Remembers id time := by
  refine ⟨_, (Index.get?_insert _ _ _ _).trans (if_pos rfl), ⟨member, time, status.isClassifiable⟩,
    List.mem_append_right _ (List.mem_singleton.2 rfl), hstatus, rfl⟩

theorem Remembers.observe (hseen : h.Remembers id time) (id' : TransactionId) (member : MemberId)
    (status : Status) (time' : Timestamp) :
    (h.observe id' member status time').Remembers id time := by
  obtain ⟨os, hos, o, ho, hkept⟩ := hseen
  by_cases hid : id = id'
  · subst hid
    refine ⟨_, (Index.get?_insert _ _ _ _).trans (if_pos rfl), o, List.mem_append_left _ ?_, hkept⟩
    rw [hos]
    exact ho
  · exact ⟨os, ((Index.get?_insert _ _ _ _).trans (if_neg hid)).trans hos, o, ho, hkept⟩

theorem Remembers.forget (hseen : h.Remembers id time) (id' : TransactionId) {cutoff : Int64}
    (hcutoff : cutoff < time.seconds) : (h.forget id' cutoff).2.Remembers id time := by
  obtain ⟨os, hos, o, ho, hclassifiable, htime⟩ := hseen
  unfold Histories.forget
  cases hfound : h.get? id' with
  | none => exact ⟨os, hos, o, ho, hclassifiable, htime⟩
  | some found =>
    by_cases hid : id = id'
    · subst hid
      cases hos.symm.trans hfound
      have hkept : o ∈ os.filter fun o => cutoff < o.time.seconds :=
        List.mem_filter.2 ⟨ho, by rw [htime]; exact decide_eq_true hcutoff⟩
      have hsome : (os.filter fun o => cutoff < o.time.seconds).isEmpty = false :=
        List.isEmpty_eq_false_iff.2 (List.ne_nil_of_mem hkept)
      simp only [hsome, Bool.false_eq_true, ↓reduceIte]
      exact ⟨_, (Index.get?_insert _ _ _ _).trans (if_pos rfl), o, hkept, hclassifiable, htime⟩
    · simp only
      split
      · exact ⟨os, ((Index.get?_erase _ _ _).trans (if_neg hid)).trans hos, o, ho, hclassifiable,
          htime⟩
      · exact ⟨os, ((Index.get?_insert _ _ _ _).trans (if_neg hid)).trans hos, o, ho,
          hclassifiable, htime⟩

theorem Remembers.forgetAll (hseen : h.Remembers id time) {cutoff : Int64}
    (hcutoff : cutoff < time.seconds) (ids : List TransactionId) :
    (forgetAll cutoff h ids).2.Remembers id time := by
  induction ids generalizing h with
  | nil => exact hseen
  | cons id' rest ih => exact ih (hseen.forget id' hcutoff)

/-- Every expiry is the end of the time for which some second is kept. -/
structure Stamped (ttl : Int64) (h : Histories) : Prop where
  kept : h.ttl = ttl
  expiries : ∀ e ∈ h.expiries, ∃ second, e.1 = saturatingAdd second ttl

theorem stamped_empty (ttl : Int64) : Stamped ttl (.empty ttl) := ⟨rfl, nofun⟩

theorem Stamped.observe (hstamped : Stamped ttl h) (id : TransactionId) (member : MemberId)
    (status : Status) (time : Timestamp) : Stamped ttl (h.observe id member status time) := by
  refine ⟨hstamped.kept, fun e he => ?_⟩
  rcases List.mem_append.1 he with he | he
  · exact hstamped.expiries e he
  · rw [List.mem_singleton] at he
    exact ⟨time.seconds, by rw [he, hstamped.kept]⟩

theorem forgetAll_frame (cutoff : Int64) (h : Histories) (ids : List TransactionId) :
    (forgetAll cutoff h ids).2.ttl = h.ttl ∧ (forgetAll cutoff h ids).2.expiries = h.expiries := by
  induction ids generalizing h with
  | nil => exact ⟨rfl, rfl⟩
  | cons id rest ih =>
    have hforget : (h.forget id cutoff).2.ttl = h.ttl ∧
        (h.forget id cutoff).2.expiries = h.expiries := by
      unfold forget
      split
      · exact ⟨rfl, rfl⟩
      · simp only
        split <;> exact ⟨rfl, rfl⟩
    exact ⟨(ih _).1.trans hforget.1, (ih _).2.trans hforget.2⟩

theorem Stamped.purge (hstamped : Stamped ttl h) (now : Timestamp) :
    Stamped ttl (h.purge now).2 := by
  unfold Histories.purge
  obtain ⟨httl, hexpiries⟩ := forgetAll_frame (saturatingSub now.seconds h.ttl)
    { h with expiries := h.expiries.dropWhile fun e => e.1 ≤ now.seconds }
    ((h.expiries.takeWhile fun e => e.1 ≤ now.seconds).map (·.2))
  refine ⟨httl.trans hstamped.kept, fun e he => ?_⟩
  rw [hexpiries] at he
  exact hstamped.expiries e ((List.dropWhile_sublist _).subset he)

/-- An expiry that is due leaves room for the whole time before the second of the purge. -/
private theorem cutoff_lt {second : Int64} {now time : Timestamp} (hpositive : 0 < ttl.toInt)
    (hdue : saturatingAdd second ttl ≤ now.seconds)
    (hrecent : now.seconds.toInt < time.seconds.toInt + ttl.toInt) :
    saturatingSub now.seconds ttl < time.seconds := by
  rw [Int64.le_iff_toInt_le] at hdue
  rw [Int64.lt_iff_toInt_lt]
  have hsecond := second.le_toInt
  have hnow := now.seconds.toInt_lt
  have hnow' := now.seconds.le_toInt
  have httl := ttl.toInt_lt
  have hsum := toInt_saturatingAdd second ttl
  have hdifference := toInt_saturatingSub now.seconds ttl
  omega

/-- A purge keeps what has not been kept for its whole time yet. -/
theorem Remembers.purge (hseen : h.Remembers id time) (hstamped : Stamped ttl h)
    (hpositive : 0 < ttl.toInt) {now : Timestamp}
    (hrecent : now.seconds.toInt < time.seconds.toInt + ttl.toInt) :
    (h.purge now).2.Remembers id time := by
  unfold Histories.purge
  have hrest : Remembers { h with expiries := h.expiries.dropWhile fun e => e.1 ≤ now.seconds } id
      time := hseen
  cases hdue : h.expiries.takeWhile fun e => e.1 ≤ now.seconds with
  | nil => exact hrest
  | cons e rest =>
    have he : e ∈ h.expiries.takeWhile fun e => e.1 ≤ now.seconds := by
      rw [hdue]
      exact List.mem_cons_self
    obtain ⟨second, hsecond⟩ := hstamped.expiries e ((List.takeWhile_sublist _).subset he)
    have hpast : e.1 ≤ now.seconds := of_decide_eq_true (List.all_eq_true.1 List.all_takeWhile e he)
    have hcutoff := cutoff_lt hpositive (hsecond ▸ hpast) hrecent
    rw [← hstamped.kept] at hcutoff
    exact hrest.forgetAll hcutoff _

/-- An identifier whose handlings all lie up to the cutoff is forgotten entirely. -/
theorem get?_forget_of_expired {os : List Observation} {cutoff : Int64} (hos : h.get? id = some os)
    (hexpired : ∀ o ∈ os, ¬cutoff < o.time.seconds) : (h.forget id cutoff).2.get? id = none := by
  have hkept : os.filter (fun o => cutoff < o.time.seconds) = [] :=
    List.filter_eq_nil_iff.2 fun o ho => by simpa only [decide_eq_true_eq] using hexpired o ho
  simp only [forget, hos, hkept, List.isEmpty_nil, ↓reduceIte]
  exact (Index.get?_erase _ _ _).trans (if_pos rfl)

/-- A handling that was kept for its whole time is forgotten. -/
theorem duplicity_of_expired (hpositive : 0 < ttl.toInt) (id : TransactionId)
    (member member' : MemberId) (status : Status) {now : Timestamp}
    (hexpired : time.seconds.toInt + ttl.toInt ≤ now.seconds.toInt) :
    (((empty ttl).observe id member status time).purge now).2.duplicity id member' =
      .believedUnique := by
  have hlow := time.seconds.le_toInt
  have hhigh := now.seconds.toInt_lt
  have httl := ttl.toInt_lt
  have hsum := toInt_saturatingAdd time.seconds ttl
  have hdifference := toInt_saturatingSub now.seconds ttl
  have hdue : saturatingAdd time.seconds ttl ≤ now.seconds := by
    rw [Int64.le_iff_toInt_le]
    omega
  have hcutoff : ¬saturatingSub now.seconds ttl < time.seconds := by
    rw [Int64.lt_iff_toInt_lt]
    omega
  have hpurge : (((empty ttl).observe id member status time).purge now).2 =
      (forget ⟨ttl, [(id, [⟨member, time, status.isClassifiable⟩])], []⟩ id
        (saturatingSub now.seconds ttl)).2 := by
    have hexpiries : ((empty ttl).observe id member status time).expiries =
        [(saturatingAdd time.seconds ttl, id)] := rfl
    simp only [purge, hexpiries, List.takeWhile_cons, List.dropWhile_cons, hdue, decide_true,
      ↓reduceIte, List.takeWhile_nil, List.dropWhile_nil, List.map_cons, List.map_nil, forgetAll]
    rfl
  have hfound : Histories.get? ⟨ttl, [(id, [⟨member, time, status.isClassifiable⟩])], []⟩ id =
      some [⟨member, time, status.isClassifiable⟩] := if_pos rfl
  rw [hpurge, duplicity, get?_forget_of_expired hfound]
  intro o ho
  rw [List.mem_singleton] at ho
  rw [ho]
  exact hcutoff

end Histories

end ConsensusLedger
