import ConsensusLedger.Proofs.Schedule.Queued
import Mathlib.Data.List.Induction

/-!
What the expiry queue drains. Whatever is tracked and drained in whatever order, a drain takes what is
due of all that is still waiting, earliest second first and within a second in tracking order. Only an
entry of the largest second never becomes due, as there is no second after it.
-/

namespace ConsensusLedger.ExpiryQueue

/-- What is asked of a queue. -/
inductive Call where
  | track (id : EntityId) (second : Int64)
  | drain (now : Int64)
  deriving DecidableEq, Repr

/-- The queue after a call. -/
def call (q : ExpiryQueue) : Call → ExpiryQueue
  | .track id second => q.track id second
  | .drain now => (q.drain now).2

def after (q : ExpiryQueue) (calls : List Call) : ExpiryQueue := calls.foldl call q

/-- An entry expires no later than `now`, and not at the largest second. -/
def Due (now : Int64) (e : Int64 × EntityId) : Prop := e.1 ≤ now ∧ e.1 ≠ Int64.maxValue

instance (now : Int64) (e : Int64 × EntityId) : Decidable (Due now e) :=
  inferInstanceAs (Decidable (_ ∧ _))

/-- What is waiting after a call, in tracking order. -/
def remain (waiting : List (Int64 × EntityId)) : Call → List (Int64 × EntityId)
  | .track id second => waiting ++ [(second, id)]
  | .drain now => waiting.filter fun e => ¬ Due now e

/-- What calls have tracked and not drained, in tracking order. -/
def waiting (calls : List Call) : List (Int64 × EntityId) := calls.foldl remain []

def noLater (a b : Int64 × EntityId) : Bool := a.1 ≤ b.1

/-- The same entries by second, those of one second in the order that they have. -/
def arranged (l : List (Int64 × EntityId)) : List (Int64 × EntityId) := l.mergeSort noLater

variable {q : ExpiryQueue} {l m : List (Int64 × EntityId)} {e : Int64 × EntityId}

theorem perm_arranged (l : List (Int64 × EntityId)) : (arranged l).Perm l := List.mergeSort_perm _ _

theorem noLater_trans (a b c : Int64 × EntityId) (hab : noLater a b = true)
    (hbc : noLater b c = true) : noLater a c = true :=
  decide_eq_true (Int64.le_trans (of_decide_eq_true hab) (of_decide_eq_true hbc))

theorem noLater_total (a b : Int64 × EntityId) : (noLater a b || noLater b a) = true := by
  simpa [noLater] using Int64.le_total a.1 b.1

theorem ascending_arranged (l : List (Int64 × EntityId)) :
    (arranged l).Pairwise fun a b => a.1 ≤ b.1 :=
  (List.pairwise_mergeSort noLater_trans noLater_total l).imp of_decide_eq_true

/-- The entries of one second are in the same order before and after. -/
theorem filter_arranged (l : List (Int64 × EntityId)) (second : Int64) :
    (arranged l).filter (·.1 = second) = l.filter (·.1 = second) := by
  have hequal : (l.filter (·.1 = second)).Pairwise fun a b => noLater a b = true := by
    refine List.pairwise_of_forall_mem_list fun a ha b hb => ?_
    have hfirst : a.1 = second := of_decide_eq_true (List.mem_filter.1 ha).2
    have hsecond : b.1 = second := of_decide_eq_true (List.mem_filter.1 hb).2
    rw [noLater, hfirst, hsecond]
    exact decide_eq_true (Int64.le_refl second)
  have hsame : (l.filter (·.1 = second)).Sublist (arranged l) :=
    List.sublist_mergeSort noLater_trans noLater_total hequal List.filter_sublist
  have hkept := hsame.filter (·.1 = second)
  simp only [List.filter_filter, Bool.and_self] at hkept
  exact (hkept.eq_of_length ((perm_arranged l).filter _).length_eq.symm).symm

theorem mem_iff_of_filter_eq (h : ∀ second, l.filter (·.1 = second) = m.filter (·.1 = second)) :
    e ∈ l ↔ e ∈ m := by
  have hsecond := congrArg (e ∈ ·) (h e.1)
  simpa [List.mem_filter] using hsecond

/-- Entries by second are determined by the entries of each second. -/
theorem eq_of_ascending (hl : l.Pairwise fun a b => a.1 ≤ b.1)
    (hm : m.Pairwise fun a b => a.1 ≤ b.1)
    (h : ∀ second, l.filter (·.1 = second) = m.filter (·.1 = second)) : l = m := by
  induction l generalizing m with
  | nil =>
    refine (List.eq_nil_iff_forall_not_mem.2 fun e he => ?_).symm
    exact List.not_mem_nil ((mem_iff_of_filter_eq h).2 he)
  | cons e rest ih =>
    cases m with
    | nil => exact absurd ((mem_iff_of_filter_eq h).1 List.mem_cons_self) List.not_mem_nil
    | cons f rest' =>
      obtain ⟨he, hrest⟩ := List.pairwise_cons.1 hl
      obtain ⟨hf, hrest'⟩ := List.pairwise_cons.1 hm
      -- Each head is an entry of the other list, so both have the first second.
      have hle : e.1 ≤ f.1 := by
        rcases List.mem_cons.1 ((mem_iff_of_filter_eq h).2 List.mem_cons_self) with rfl | hmem
        · exact Int64.le_refl _
        · exact he f hmem
      have hge : f.1 ≤ e.1 := by
        rcases List.mem_cons.1 ((mem_iff_of_filter_eq h).1 List.mem_cons_self) with rfl | hmem
        · exact Int64.le_refl _
        · exact hf e hmem
      have hfirst : f.1 = e.1 := Int64.le_antisymm hge hle
      obtain rfl : e = f := by
        have hhead := h e.1
        simp only [List.filter_cons, hfirst, decide_true, if_true] at hhead
        exact (List.cons.inj hhead).1
      have hfilters (second : Int64) :
          rest.filter (·.1 = second) = rest'.filter (·.1 = second) := by
        have hboth := h second
        simp only [List.filter_cons] at hboth
        split at hboth
        · exact (List.cons.inj hboth).2
        · exact hboth
      rw [ih hrest hrest' hfilters]

/-- What is left out of a list leaves the order of the others. -/
theorem arranged_filter (l : List (Int64 × EntityId)) (p : Int64 × EntityId → Bool) :
    arranged (l.filter p) = (arranged l).filter p := by
  refine eq_of_ascending (ascending_arranged _) ((ascending_arranged l).filter p) fun second => ?_
  rw [filter_arranged, List.filter_filter, List.filter_filter]
  simp only [Bool.and_comm _ (p _)]
  rw [← List.filter_filter, ← List.filter_filter, filter_arranged]

theorem filter_place {second : Int64} {id : EntityId} (hl : l.Pairwise fun a b => a.1 ≤ b.1)
    (s : Int64) :
    (place second id l).filter (·.1 = s) = (l ++ [(second, id)]).filter (·.1 = s) := by
  induction l with
  | nil => rfl
  | cons e rest ih =>
    obtain ⟨he, hrest⟩ := List.pairwise_cons.1 hl
    rw [place]
    split
    · rw [List.cons_append, List.filter_cons, List.filter_cons, ih hrest]
    · rename_i hlater
      have hlater : second < e.1 := Int64.not_le.1 hlater
      rw [List.filter_append, List.filter_cons]
      by_cases hs : second = s
      · -- No entry of the second is in front of which the new one is placed.
        have hnone : (e :: rest).filter (·.1 = s) = [] := by
          refine List.filter_eq_nil_iff.2 fun f hf hsame => ?_
          have hfs : f.1 = second := (of_decide_eq_true hsame).trans hs.symm
          rcases List.mem_cons.1 hf with rfl | hf
          · exact absurd hlater (hfs ▸ Int64.lt_irrefl)
          · exact Int64.not_le.2 hlater (hfs ▸ he f hf)
        rw [hnone]
        simp [hs]
      · simp [hs]

theorem place_arranged (l : List (Int64 × EntityId)) (second : Int64) (id : EntityId) :
    place second id (arranged l) = arranged (l ++ [(second, id)]) := by
  refine eq_of_ascending (place_ordered second id (ascending_arranged l)) (ascending_arranged _)
    fun s => ?_
  rw [filter_place (ascending_arranged l), filter_arranged, List.filter_append, filter_arranged,
    List.filter_append]

theorem isDue_eq (now : Int64) : isDue now = fun e => decide (Due now e) := by
  funext e
  rw [Bool.eq_iff_iff, decide_eq_true_eq]
  exact isDue_iff

/-- One call on a queue that has what is waiting. -/
theorem entries_call (h : q.entries = arranged l) (c : Call) :
    (q.call c).entries = arranged (remain l c) := by
  cases c with
  | track id second =>
    have hplaced : (q.call (.track id second)).entries = place second id q.entries := rfl
    rw [hplaced, h]
    exact place_arranged l second id
  | drain now =>
    have hkept : (q.call (.drain now)).entries = q.entries.filter fun e => !isDue now e := rfl
    rw [hkept, h, isDue_eq, remain, arranged_filter]
    simp only [decide_not]

/-- Any number of calls. -/
theorem entries_after (calls : List Call) :
    (empty.after calls).entries = arranged (waiting calls) := by
  induction calls using List.reverseRecOn with
  | nil => exact List.mergeSort_nil.symm
  | append_singleton calls c ih =>
    have hafter : empty.after (calls ++ [c]) = (empty.after calls).call c := by simp [after]
    have hwaiting : waiting (calls ++ [c]) = remain (waiting calls) c := by simp [waiting]
    rw [hafter, hwaiting]
    exact entries_call ih c

/-- Drains take what is due, in order, and keep all else, whatever was tracked and drained before and
at whatever seconds. Of the entries that are waiting a drain lists exactly those that expire by then,
as often as they were tracked, by their seconds and those of one second in tracking order, but no
entry of the largest second; the queue then has exactly the others. Its size is the number of entries
that are waiting, and it is empty exactly when there are none. -/
theorem drained_in_order (calls : List Call) (now : Int64) :
    let q := empty.after calls
    (q.drain now).1 =
        (arranged ((waiting calls).filter fun e => Due now e)).map (·.2) ∧
      (q.drain now).2.entries = arranged ((waiting calls).filter fun e => ¬ Due now e) ∧
      q.size = (waiting calls).length ∧ (q.isEmpty = true ↔ waiting calls = []) := by
  intro q
  have hentries : q.entries = arranged (waiting calls) := entries_after calls
  have hsize : q.size = (waiting calls).length := by
    rw [size, hentries]
    exact (perm_arranged _).length_eq
  refine ⟨?_, entries_call hentries (.drain now), hsize, ?_⟩
  · have hdrained : (q.drain now).1 = (q.entries.filter (isDue now)).map (·.2) := rfl
    rw [hdrained, arranged_filter, ← hentries, isDue_eq]
  · rw [← List.length_eq_zero_iff, ← hsize, size, isEmpty, List.isEmpty_iff_length_eq_zero]

/-- Something that expires at the largest second is still waiting after a drain at that second. -/
theorem last_second_never_drained :
    let calls := [.track (.ofNum 1) Int64.maxValue]
    waiting calls = [(Int64.maxValue, .ofNum 1)] ∧
      ((empty.after calls).drain Int64.maxValue).1 = [] ∧
      ((empty.after calls).drain Int64.maxValue).2.size = 1 := by
  decide

end ConsensusLedger.ExpiryQueue
