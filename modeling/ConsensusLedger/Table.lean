/-!
Finite maps as lists of entries in ascending key order. A table is determined by its look-ups, so two
tables with the same contents are equal.
-/

namespace ConsensusLedger

/-- A finite map; each key occurs once, and the entries stand in ascending key order. -/
structure Table (κ ν : Type) [Ord κ] where
  entries : List (κ × ν)
  ascending : entries.Pairwise fun a b => compare a.1 b.1 = .lt

namespace Table

variable {κ ν : Type} [Ord κ]

/-- The value under `k` in a list of entries. -/
def lookup (k : κ) : List (κ × ν) → Option ν
  | [] => none
  | e :: rest => if compare k e.1 = .eq then some e.2 else lookup k rest

/-- The entries with the value under `k` set to `v`. -/
def put (k : κ) (v : ν) : List (κ × ν) → List (κ × ν)
  | [] => [(k, v)]
  | e :: rest =>
    match compare k e.1 with
    | .lt => (k, v) :: e :: rest
    | .eq => (k, v) :: rest
    | .gt => e :: put k v rest

theorem mem_put {k : κ} {v : ν} {e : κ × ν} {l : List (κ × ν)} (h : e ∈ put k v l) :
    e = (k, v) ∨ e ∈ l := by
  induction l with
  | nil => simpa [put] using h
  | cons f rest ih =>
    simp only [put] at h
    split at h <;> simp only [List.mem_cons] at h ⊢ <;> grind

theorem put_ascending [Std.TransOrd κ] [Std.LawfulEqOrd κ] (k : κ) (v : ν) {l : List (κ × ν)}
    (h : l.Pairwise fun a b => compare a.1 b.1 = .lt) :
    (put k v l).Pairwise fun a b => compare a.1 b.1 = .lt := by
  induction l with
  | nil => simp [put]
  | cons f rest ih =>
    obtain ⟨hf, hrest⟩ := List.pairwise_cons.1 h
    simp only [put]
    split
    · rename_i hlt
      refine List.pairwise_cons.2 ⟨fun e he => ?_, h⟩
      rcases List.mem_cons.1 he with rfl | he
      · exact hlt
      · exact Std.TransCmp.lt_trans hlt (hf e he)
    · rename_i heq
      rw [Std.LawfulEqCmp.eq_of_compare heq]
      exact List.pairwise_cons.2 ⟨hf, hrest⟩
    · rename_i hgt
      refine List.pairwise_cons.2 ⟨fun e he => ?_, ih hrest⟩
      rcases mem_put he with rfl | he
      · exact Std.OrientedCmp.gt_iff_lt.1 hgt
      · exact hf e he

def empty : Table κ ν := ⟨[], .nil⟩

instance : EmptyCollection (Table κ ν) := ⟨empty⟩

instance : Inhabited (Table κ ν) := ⟨∅⟩

def get? (t : Table κ ν) (k : κ) : Option ν := lookup k t.entries

def contains (t : Table κ ν) (k : κ) : Bool := (t.get? k).isSome

def size (t : Table κ ν) : Nat := t.entries.length

def isEmpty (t : Table κ ν) : Bool := t.entries.isEmpty

def keys (t : Table κ ν) : List κ := t.entries.map (·.1)

def values (t : Table κ ν) : List ν := t.entries.map (·.2)

section
variable [Std.TransOrd κ] [Std.LawfulEqOrd κ]

def insert (t : Table κ ν) (k : κ) (v : ν) : Table κ ν :=
  ⟨put k v t.entries, put_ascending k v t.ascending⟩

def ofList (l : List (κ × ν)) : Table κ ν := l.foldl (fun t e => t.insert e.1 e.2) ∅

end

def erase (t : Table κ ν) (k : κ) : Table κ ν :=
  ⟨t.entries.filter fun e => compare k e.1 != .eq, t.ascending.filter _⟩

@[simp] theorem get?_empty (k : κ) : (∅ : Table κ ν).get? k = none := rfl

section
variable [Std.TransOrd κ] [Std.LawfulEqOrd κ]

omit [Std.TransOrd κ] in
theorem lookup_put (k : κ) (v : ν) (l : List (κ × ν)) (k' : κ) :
    lookup k' (put k v l) = if compare k' k = .eq then some v else lookup k' l := by
  induction l with
  | nil => simp [put, lookup]
  | cons e rest ih =>
    simp only [put]
    split
    · simp [lookup]
    · rename_i heq
      have := Std.LawfulEqCmp.eq_of_compare heq
      subst this
      simp only [lookup]
      split <;> rfl
    · rename_i hgt
      simp only [lookup, ih]
      by_cases h : compare k' e.1 = .eq
      · have hk := Std.LawfulEqCmp.eq_of_compare h
        subst hk
        have : compare e.1 k ≠ .eq := by
          intro hc
          have := Std.LawfulEqCmp.eq_of_compare hc
          subst this
          simp [Std.ReflCmp.compare_self] at hgt
        simp [this]
      · simp [h]

theorem get?_insert (t : Table κ ν) (k : κ) (v : ν) (k' : κ) :
    (t.insert k v).get? k' = if compare k' k = .eq then some v else t.get? k' :=
  lookup_put k v t.entries k'

omit [Std.TransOrd κ] in
theorem lookup_filter_ne (k : κ) (l : List (κ × ν)) (k' : κ) :
    lookup k' (l.filter fun e => compare k e.1 != .eq) =
      if compare k' k = .eq then none else lookup k' l := by
  induction l with
  | nil => simp [lookup]
  | cons e rest ih =>
    by_cases hk : compare k e.1 = .eq
    · have := Std.LawfulEqCmp.eq_of_compare hk
      subst this
      simp only [List.filter_cons, Std.ReflCmp.compare_self, bne_self_eq_false, Bool.false_eq_true,
        ↓reduceIte, ih, lookup]
      split <;> rfl
    · simp only [List.filter_cons, bne_iff_ne, ne_eq, hk, not_false_eq_true, ↓reduceIte, lookup, ih]
      by_cases h : compare k' e.1 = .eq
      · have := Std.LawfulEqCmp.eq_of_compare h
        subst this
        have hne : compare e.1 k ≠ .eq := by
          intro hc
          have := Std.LawfulEqCmp.eq_of_compare hc
          subst this
          simp [Std.ReflCmp.compare_self] at hk
        simp [hne]
      · simp [h]

omit [Std.TransOrd κ] in
theorem get?_erase (t : Table κ ν) (k k' : κ) :
    (t.erase k).get? k' = if compare k' k = .eq then none else t.get? k' :=
  lookup_filter_ne k t.entries k'

end

end Table

end ConsensusLedger
