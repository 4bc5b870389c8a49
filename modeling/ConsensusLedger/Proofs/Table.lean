import ConsensusLedger.Store.Collection
import Mathlib.Data.List.Induction
import Mathlib.Data.List.Nodup

/-!
Tables and collections seen through their look-ups. An entry of a table is exactly a key with the
value found under it, and each write changes the look-up of its own key only.
-/

namespace ConsensusLedger

/-- Where a function tells the members of a list apart, it tells each from those after it. -/
theorem ne_of_nodup_map {α β : Type} {f : α → β} {before after : List α} {a : α}
    (h : ((before ++ a :: after).map f).Nodup) : ∀ b ∈ after, f b ≠ f a := by
  intro b hb heq
  rw [List.map_append, List.map_cons] at h
  exact (List.nodup_cons.1 h.of_append_right).1 (List.mem_map.2 ⟨b, hb, heq⟩)

namespace Table

variable {κ ν : Type} [Ord κ] [Std.TransOrd κ] [Std.LawfulEqOrd κ]

omit [Std.TransOrd κ] in
theorem ne_of_compare_lt {k k' : κ} (h : compare k k' = .lt) : k ≠ k' := by
  rintro rfl
  rw [(Std.ReflCmp.compare_self : compare k k = .eq)] at h
  cases h

omit [Std.TransOrd κ] in
theorem lookup_eq_some_iff {l : List (κ × ν)}
    (h : l.Pairwise fun a b => compare a.1 b.1 = .lt) {k : κ} {v : ν} :
    lookup k l = some v ↔ (k, v) ∈ l := by
  induction l with
  | nil => simp [lookup]
  | cons e rest ih =>
    obtain ⟨he, hrest⟩ := List.pairwise_cons.1 h
    simp only [lookup, List.mem_cons]
    split
    · rename_i heq
      have hk := Std.LawfulEqCmp.eq_of_compare heq
      subst hk
      constructor
      · intro hv
        exact .inl (by rw [← Option.some.inj hv])
      · rintro (hv | hv)
        · rw [← hv]
        · exact absurd rfl (ne_of_compare_lt (he (e.1, v) hv))
    · rename_i hne
      rw [ih hrest]
      constructor
      · exact .inr
      · rintro (hv | hv)
        · rw [← hv] at hne
          exact absurd Std.ReflCmp.compare_self hne
        · exact hv

omit [Std.TransOrd κ] in
theorem get?_eq_some_iff (t : Table κ ν) {k : κ} {v : ν} :
    t.get? k = some v ↔ (k, v) ∈ t.entries :=
  lookup_eq_some_iff t.ascending

theorem get?_insert_of_eq [DecidableEq κ] (t : Table κ ν) (k : κ) (v : ν) (k' : κ) :
    (t.insert k v).get? k' = if k' = k then some v else t.get? k' := by
  simp only [get?_insert, Std.LawfulEqCmp.compare_eq_iff_eq]

omit [Std.TransOrd κ] in
theorem get?_erase_of_eq [DecidableEq κ] (t : Table κ ν) (k k' : κ) :
    (t.erase k).get? k' = if k' = k then none else t.get? k' := by
  simp only [get?_erase, Std.LawfulEqCmp.compare_eq_iff_eq]

omit [Std.TransOrd κ] in
theorem entries_erase [DecidableEq κ] (t : Table κ ν) (k : κ) :
    (t.erase k).entries = t.entries.filter (·.1 ≠ k) := by
  apply List.filter_congr
  intro e _
  rw [Bool.eq_iff_iff, bne_iff_ne, decide_eq_true_eq, ne_eq, Std.LawfulEqCmp.compare_eq_iff_eq]
  exact not_congr eq_comm

omit [Std.TransOrd κ] in
theorem nodup_keys (t : Table κ ν) : t.keys.Nodup :=
  List.pairwise_map.2 (t.ascending.imp ne_of_compare_lt)

/-- Of the values listed for a key the last one is found. -/
theorem get?_ofList [DecidableEq κ] (l : List (κ × ν)) (k : κ) :
    (ofList l).get? k = l.reverse.lookup k := by
  induction l using List.reverseRecOn with
  | nil => rfl
  | append_singleton l e ih =>
    have hinsert : ofList (l ++ [e]) = (ofList l).insert e.1 e.2 := by simp [ofList]
    rw [hinsert, get?_insert_of_eq, List.reverse_concat, List.lookup_cons, ih]
    by_cases hk : k = e.1
    · simp [hk]
    · rw [if_neg hk, beq_eq_false_iff_ne.2 hk]

theorem get?_ofList_eq_some_iff [DecidableEq κ] (l : List (κ × ν)) {k : κ} {v : ν} :
    (ofList l).get? k = some v ↔
      ∃ before after, l = before ++ (k, v) :: after ∧ ∀ e ∈ after, e.1 ≠ k := by
  rw [get?_ofList, List.lookup_eq_some_iff]
  constructor
  · rintro ⟨after, before, hsplit, hafter⟩
    refine ⟨before.reverse, after.reverse, by simpa using congrArg List.reverse hsplit, ?_⟩
    intro e he
    exact (bne_iff_ne.1 (hafter e (List.mem_reverse.1 he))).symm
  · rintro ⟨before, after, rfl, hafter⟩
    refine ⟨after.reverse, before.reverse, by simp, fun e he => ?_⟩
    exact bne_iff_ne.2 (hafter e (List.mem_reverse.1 he)).symm

/-- Where no key is listed twice, the table has the entries that are listed. -/
theorem entries_ofList_perm [DecidableEq κ] {l : List (κ × ν)} (h : (l.map (·.1)).Nodup) :
    (ofList l).entries.Perm l := by
  refine (List.perm_ext_iff_of_nodup (ofList l).nodup_keys.of_map h.of_map).2 ?_
  rintro ⟨k, v⟩
  rw [← get?_eq_some_iff, get?_ofList_eq_some_iff]
  constructor
  · rintro ⟨before, after, rfl, -⟩
    exact List.mem_append_right before List.mem_cons_self
  · intro hmem
    obtain ⟨before, after, rfl⟩ := List.append_of_mem hmem
    exact ⟨before, after, rfl, ne_of_nodup_map h⟩

/-- A table is determined by its look-ups: both hold the same entries, and in the same order. -/
theorem entries_eq_of_get? {t u : Table κ ν} (h : ∀ k, t.get? k = u.get? k) :
    t.entries = u.entries := by
  have hmem (e : κ × ν) : e ∈ t.entries ↔ e ∈ u.entries := by
    rw [← t.get?_eq_some_iff, ← u.get?_eq_some_iff, h]
  have hnodup (t : Table κ ν) : t.entries.Nodup :=
    t.ascending.imp fun hlt heq => ne_of_compare_lt hlt (congrArg Prod.fst heq)
  have hperm := (List.perm_ext_iff_of_nodup (hnodup t) (hnodup u)).2 hmem
  have hasymm {k k' : κ} (hlt : compare k k' = .lt) : compare k' k ≠ .lt :=
    Std.OrientedCmp.not_lt_of_lt hlt
  exact hperm.eq_of_pairwise (fun _ _ _ _ hlt hgt => absurd hgt (hasymm hlt)) t.ascending
    u.ascending

end Table

namespace Collection

variable {κ ν : Type} [Ord κ]

@[simp] theorem get?_empty (k : κ) : (empty : Collection κ ν).get? k = none := rfl

theorem contains_eq (c : Collection κ ν) (k : κ) : c.contains k = (c.get? k).isSome := rfl

variable [Std.TransOrd κ] [Std.LawfulEqOrd κ]

theorem get?_put [DecidableEq κ] (c : Collection κ ν) (k : κ) (v : ν) (k' : κ) :
    (c.put k v).get? k' = if k' = k then some v else c.get? k' :=
  c.table.get?_insert_of_eq k v k'

omit [Std.TransOrd κ] in
theorem get?_remove [DecidableEq κ] (c : Collection κ ν) (k k' : κ) :
    (c.remove k).get? k' = if k' = k then none else c.get? k' := by
  unfold remove
  split
  · exact c.table.get?_erase_of_eq k k'
  · rename_i hk
    by_cases h : k' = k
    · subst h
      rw [contains_eq, Option.not_isSome_iff_eq_none] at hk
      simpa only [↓reduceIte] using hk
    · simp only [h, ↓reduceIte]

omit [Std.TransOrd κ] in
theorem entries_remove [DecidableEq κ] (c : Collection κ ν) (k : κ) :
    (c.remove k).entries = c.entries.filter (·.1 ≠ k) := by
  unfold remove
  split
  · exact c.table.entries_erase k
  · rename_i hk
    rw [contains_eq, Option.not_isSome_iff_eq_none] at hk
    refine (List.filter_eq_self.2 fun e he => ?_).symm
    rw [decide_eq_true_eq]
    rintro rfl
    have hsome : c.get? e.1 = some e.2 := c.table.get?_eq_some_iff.2 he
    rw [hk] at hsome
    cases hsome

end Collection

end ConsensusLedger
