import ConsensusLedger.Proofs.Schedule.Store

/-!
The fingerprint index of a store whose numbers do not wrap. It is exact when the store is built over
schedules whose fingerprints differ and whose numbers have been handed out, and it stays exact as long
as the next number does not fall.
-/

namespace ConsensusLedger

/-- After insertions under keys that differ, what was inserted under a key is found, or else what was
there before. -/
theorem Index.get?_foldl_insert {ι κ ν : Type} [DecidableEq κ] (key : ι → κ) (value : ι → ν)
    {l : List ι} (hdistinct : l.Pairwise fun a b => key a ≠ key b) (m : Index κ ν) (k : κ) (v : ν) :
    (l.foldl (fun (m : Index κ ν) e => m.insert (key e) (value e)) m).get? k = some v ↔
      (∃ e ∈ l, key e = k ∧ value e = v) ∨ ((∀ e ∈ l, key e ≠ k) ∧ m.get? k = some v) := by
  induction l generalizing m with
  | nil => simp only [List.foldl_nil, List.not_mem_nil, false_and, exists_false, false_or,
      false_imp_iff, implies_true, true_and]
  | cons e rest ih =>
    obtain ⟨he, hrest⟩ := List.pairwise_cons.1 hdistinct
    rw [List.foldl_cons, ih hrest, get?_insert]
    simp only [List.mem_cons, exists_eq_or_imp, forall_eq_or_imp]
    by_cases hk : key e = k
    · -- No later insertion is under this key.
      have hlater : ∀ e' ∈ rest, key e' ≠ k := fun e' he' hsame => he e' he' (hk.trans hsame.symm)
      rw [if_pos hk.symm]
      constructor
      · rintro (⟨e', he', hsame, -⟩ | ⟨-, hv⟩)
        · exact absurd hsame (hlater e' he')
        · exact .inl (.inl ⟨hk, Option.some.inj hv⟩)
      · rintro ((⟨-, hv⟩ | ⟨e', he', hsame, -⟩) | ⟨⟨hne, -⟩, -⟩)
        · exact .inr ⟨hlater, congrArg some hv⟩
        · exact absurd hsame (hlater e' he')
        · exact absurd hk hne
    · rw [if_neg (Ne.symm hk)]
      constructor
      · rintro (hfound | ⟨hnone, hm⟩)
        · exact .inl (.inr hfound)
        · exact .inr ⟨⟨hk, hnone⟩, hm⟩
      · rintro ((⟨hsame, -⟩ | hfound) | ⟨⟨-, hnone⟩, hm⟩)
        · exact absurd hsame hk
        · exact .inl hfound
        · exact .inr ⟨hnone, hm⟩

namespace ScheduleStore

variable {s t : ScheduleStore} {id : ScheduleId} {x : Schedule} {n : Nat}

/-- Nothing is pending, the index finds exactly the committed schedules by their fingerprints, and
their numbers are below the next one. -/
def Indexed (s : ScheduleStore) : Prop := Tidy 0 s.nextNumber.toNat s

theorem Indexed.num_lt (h : Indexed s) (hx : s.committed? id = some x) : id.num < s.nextNumber := by
  obtain ⟨j, hj, hnum⟩ := h.numbers id x hx
  have hnext := s.nextNumber.toNat_lt
  rw [UInt64.lt_iff_toNat_lt, hnum, UInt64.zero_add, UInt64.toNat_ofNat']
  omega

/-- As long as the next number has not fallen, it says how many numbers were handed out. -/
theorem Tidy.count_eq (h : Tidy 0 n t) (hn : n ≤ s.nextNumber.toNat + 1)
    (hgrown : s.nextNumber ≤ t.nextNumber) : n = t.nextNumber.toNat := by
  have hbound := s.nextNumber.toNat_lt
  have hnext := congrArg UInt64.toNat h.next
  rw [UInt64.zero_add, UInt64.toNat_ofNat'] at hnext
  rw [UInt64.le_iff_toNat_le] at hgrown
  omega

/-- A store over schedules whose fingerprints differ and whose numbers were handed out is indexed. -/
theorem indexed_ofCollection (lifetime : Int64) {ids : IdSource} {c : Collection ScheduleId Schedule}
    (hdistinct : c.entries.Pairwise fun a b => a.2.fingerprint ≠ b.2.fingerprint)
    (hnumbers : ∀ e ∈ c.entries, e.1.num < ids.next) :
    Indexed (.ofCollection lifetime ids c) := by
  refine ⟨rfl, fun key id => ?_, ?_, fun id x hx => ?_⟩
  · have hindex := Index.get?_foldl_insert (fun e : ScheduleId × Schedule => e.2.fingerprint)
      Prod.fst hdistinct [] key id
    refine hindex.trans ?_
    constructor
    · rintro (⟨⟨id', x⟩, he, hkey, rfl⟩ | ⟨-, hnone⟩)
      · exact ⟨x, c.table.get?_eq_some_iff.2 he, hkey⟩
      · cases hnone
    · rintro ⟨x, hx, hkey⟩
      exact .inl ⟨(id, x), c.table.get?_eq_some_iff.1 hx, hkey, rfl⟩
  · rw [UInt64.zero_add, UInt64.ofNat_toNat]
  · refine ⟨id.num.toNat, ?_, ?_⟩
    · exact UInt64.lt_iff_toNat_lt.1 (hnumbers (id, x) (c.table.get?_eq_some_iff.1 hx))
    · rw [UInt64.zero_add, UInt64.ofNat_toNat]

theorem indexed_empty (lifetime : Int64) (first : UInt64) : Indexed (.empty lifetime first) :=
  indexed_ofCollection lifetime .nil nofun

end ScheduleStore

end ConsensusLedger
