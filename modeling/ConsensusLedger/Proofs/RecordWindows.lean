import ConsensusLedger.Proofs.Record.Window

/-!
Record files as a partition of the stream. The records of a window are a stretch of the stream, since
the times ascend; so the files, in the order of their windows, give the whole stream again.
-/

namespace ConsensusLedger

namespace RecordFiles

/-- A list that is sorted by a number begins with the entries whose number is the least. -/
theorem filter_append_filter_ne {α : Type} {number : α → Int} {k : Int} {xs : List α}
    (hsorted : xs.Pairwise fun a b => number a ≤ number b) (hleast : ∀ x ∈ xs, k ≤ number x) :
    xs.filter (number · = k) ++ xs.filter (number · ≠ k) = xs := by
  induction xs with
  | nil => rfl
  | cons x xs ih =>
    obtain ⟨hx, hsorted⟩ := List.pairwise_cons.1 hsorted
    obtain ⟨hk, hleast⟩ := List.forall_mem_cons.1 hleast
    by_cases heq : number x = k
    · simp only [List.filter_cons, heq, decide_true, if_true, ne_eq, not_true, decide_false,
        List.cons_append]
      exact congrArg _ (ih hsorted hleast)
    · have hlater (y : α) (hy : y ∈ x :: xs) : number y ≠ k := by
        rcases List.mem_cons.1 hy with rfl | hy
        · exact heq
        · have := hx y hy
          omega
      rw [List.filter_eq_nil_iff.2 (fun y hy => by simpa using hlater y hy),
        List.filter_eq_self.2 fun y hy => by simpa using hlater y hy, List.nil_append]

/-- A list that is sorted by a number is put together from its parts, number by number. -/
theorem flatMap_filter {α : Type} {number : α → Int} {ks : List Int} {xs : List α}
    (hks : ks.Pairwise (· < ·)) (hsorted : xs.Pairwise fun a b => number a ≤ number b)
    (hmem : ∀ x ∈ xs, number x ∈ ks) : (ks.flatMap fun k => xs.filter (number · = k)) = xs := by
  induction ks generalizing xs with
  | nil =>
    cases xs with
    | nil => rfl
    | cons x xs => cases hmem x List.mem_cons_self
  | cons k ks ih =>
    obtain ⟨hk, hks⟩ := List.pairwise_cons.1 hks
    have hleast (x : α) (hx : x ∈ xs) : k ≤ number x := by
      rcases List.mem_cons.1 (hmem x hx) with heq | hlater
      · exact heq.ge
      · exact (hk _ hlater).le
    have hrest : (ks.flatMap fun l => (xs.filter (number · ≠ k)).filter (number · = l)) =
        xs.filter (number · ≠ k) := by
      refine ih hks (hsorted.filter _) fun x hx => ?_
      obtain ⟨hx, hne⟩ := List.mem_filter.1 hx
      exact (List.mem_cons.1 (hmem x hx)).resolve_left (of_decide_eq_true hne)
    have hsame (l : Int) (hl : l ∈ ks) :
        (xs.filter (number · ≠ k)).filter (number · = l) = xs.filter (number · = l) := by
      rw [List.filter_filter]
      refine List.filter_congr fun x _ => ?_
      have := hk l hl
      rw [Bool.eq_iff_iff, Bool.and_eq_true, decide_eq_true_eq, decide_eq_true_eq]
      omega
    rw [List.flatMap_cons, ← List.flatMap_congr hsame, hrest, filter_append_filter_ne hsorted hleast]

/-- Record files partition the stream. For records at ascending times there is one file for each
window that has a record. It is named after the first record of the window and holds the lines of all
of them, in the order of the stream. No two files have the same name, and the files in the order of
their windows hold the lines of the whole stream. -/
theorem record_files_partition (directory : String) (period : UInt64)
    (hperiod : period.toNat ≤ 0x7fffffffffffffff) (records : List StreamedRecord)
    (hnormal : ∀ s ∈ records, s.object.time.Normal)
    (hlater : records.Pairwise fun s s' => s'.object.time.isAfter s.object.time = true) :
    (∀ earlier s later, records = earlier ++ s :: later →
      (((empty directory period true).after earlier).accept s).1.isOk = true) ∧
    ∃ windows : List Int,
      windows.Pairwise (· < ·) ∧
      (∀ w, w ∈ windows ↔ ∃ s ∈ records, windowStart period s.object.time = w) ∧
      let files := ((empty directory period true).after records).files
      files.map some = windows.map (fileOf? period records) ∧
        (files.map (·.1)).Nodup ∧
        files.flatMap (·.2) = records.map StreamedRecord.line := by
  constructor
  · rintro earlier s later rfl
    obtain ⟨windows, h⟩ := Filed.after directory hperiod
      (fun r hr => hnormal r (List.mem_append_left _ hr)) (List.pairwise_append.1 hlater).1
    exact (accept_isOk h.writable).1
  · obtain ⟨windows, h⟩ := Filed.after directory hperiod hnormal hlater
    have hsorted : records.Pairwise fun s s' =>
        windowStart period s.object.time ≤ windowStart period s'.object.time :=
      hlater.imp windowStart_le
    have hstream : windows.flatMap (inWindow period records) = records :=
      flatMap_filter h.ascending hsorted fun s hs => (h.mem_iff _).2 ⟨s, hs, rfl⟩
    refine ⟨windows, h.ascending, h.mem_iff, h.files_eq, h.nodup_names hnormal, ?_⟩
    rw [h.lines_eq, hstream]

/-- What is streamed at a second for a transaction of account 0.0.2. -/
def streamedAt (second : Int64) : StreamedRecord :=
  ⟨⟨⟨⟨.ok, none, none⟩, Octets.replicate 48 1, ⟨second, 0⟩, ⟨.ofNum 2, ⟨0, 0⟩, false⟩, "", 0, [],
    none⟩, [7], ⟨second, 0⟩⟩, Octets.replicate 48 2⟩

/-- Windows of two seconds: the second before the epoch lies in a window of its own, and of the
seconds 100 to 102 the first two share one. -/
theorem record_files_partition_rollover :
    let records := [streamedAt (-1), streamedAt 100, streamedAt 101, streamedAt 102]
    let files := ((empty "records" 2 true).after records).files
    (∀ s ∈ records, s.object.time.Normal) ∧
      records.Pairwise (fun s s' => s'.object.time.isAfter s.object.time = true) ∧
      records.map (fun s => windowStart 2 s.object.time) = [-2, 100, 100, 102] ∧
      files.map (·.1) = ["1969-12-31T23_59_59.000000000Z.rcd.jsonl",
        "1970-01-01T00_01_40.000000000Z.rcd.jsonl", "1970-01-01T00_01_42.000000000Z.rcd.jsonl"] ∧
      (files.map (·.1)).Nodup ∧ files.flatMap (·.2) = records.map StreamedRecord.line := by
  intro records files
  have hnormal : ∀ s ∈ records, s.object.time.Normal := by decide
  have hlater : records.Pairwise fun s s' => s'.object.time.isAfter s.object.time = true := by
    decide
  obtain ⟨-, windows, -, -, -, hnames, hlines⟩ :=
    record_files_partition "records" 2 (by decide) records hnormal hlater
  exact ⟨hnormal, hlater, by decide, by decide +kernel, hnames, hlines⟩

end RecordFiles

end ConsensusLedger
