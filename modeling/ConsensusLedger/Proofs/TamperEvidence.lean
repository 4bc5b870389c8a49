import ConsensusLedger.Proofs.Record.Stream
import ConsensusLedger.Proofs.Record.Wire

/-!
A running hash gives away every change of what it absorbed. Two histories of the same length that
end in one head are the same, or the bytes that were hashed on the way contain a collision.
-/

namespace ConsensusLedger

namespace Digest

/-- The byte strings that are hashed along a chain: each item, and each link it joins by. -/
def hashed (seed : Octets 48) : List (List UInt8) → List (List UInt8)
  | [] => []
  | item :: items => item :: linkInput seed item :: hashed (link seed item) items

/-- Two different byte strings of the list have the same digest. -/
def Collides (messages : List (List UInt8)) : Prop :=
  ∃ a ∈ messages, ∃ b ∈ messages, a ≠ b ∧ sha384 a = sha384 b

instance (messages : List (List UInt8)) : Decidable (Collides messages) :=
  inferInstanceAs (Decidable (∃ a ∈ messages, ∃ b ∈ messages, _ ∧ _))

theorem Collides.of_subset {messages messages' : List (List UInt8)} (h : Collides messages)
    (hsubset : ∀ a ∈ messages, a ∈ messages') : Collides messages' := by
  obtain ⟨a, ha, b, hb, hne, hdigest⟩ := h
  exact ⟨a, hsubset a ha, b, hsubset b hb, hne, hdigest⟩

/-- The head comes first and has a fixed length, so it can be told from the digest of the item. -/
theorem linkInput_inj {seed seed' : Octets 48} {item item' : List UInt8}
    (h : linkInput seed item = linkInput seed' item') : seed = seed' ∧ sha384 item = sha384 item' := by
  have hlength : seed.val.length = seed'.val.length := seed.property.trans seed'.property.symm
  obtain ⟨hseed, hdigest⟩ := List.append_inj h hlength
  exact ⟨Subtype.ext hseed, Subtype.ext hdigest⟩

/-- One link: the same head comes from the same head and item, or from a collision. -/
theorem link_eq {seed seed' : Octets 48} {item item' : List UInt8}
    (h : link seed item = link seed' item') :
    (seed = seed' ∧ item = item') ∨
      Collides [item, linkInput seed item, item', linkInput seed' item'] := by
  by_cases hinput : linkInput seed item = linkInput seed' item'
  · obtain ⟨hseed, hdigest⟩ := linkInput_inj hinput
    by_cases hitem : item = item'
    · exact .inl ⟨hseed, hitem⟩
    · exact .inr ⟨item, by simp, item', by simp, hitem, hdigest⟩
  · exact .inr ⟨_, by simp, _, by simp, hinput, h⟩

/-- From the last link back to the first: where the heads agree, so do the links before them. -/
theorem chain_eq {seed seed' : Octets 48} {items items' : List (List UInt8)}
    (hlength : items.length = items'.length) (h : chain seed items = chain seed' items') :
    (seed = seed' ∧ items = items') ∨ Collides (hashed seed items ++ hashed seed' items') := by
  induction items generalizing seed seed' items' with
  | nil =>
    obtain rfl := List.eq_nil_of_length_eq_zero hlength.symm
    exact .inl ⟨h, rfl⟩
  | cons item items ih =>
    obtain ⟨item', items', rfl⟩ := List.exists_cons_of_length_eq_add_one hlength.symm
    rcases ih (Nat.succ.inj hlength) h with ⟨hlink, rfl⟩ | hcollides
    · rcases link_eq hlink with ⟨rfl, rfl⟩ | hcollides
      · exact .inl ⟨rfl, rfl⟩
      · refine .inr (hcollides.of_subset ?_)
        simp [hashed]
    · refine .inr (hcollides.of_subset fun a ha => ?_)
      rcases List.mem_append.1 ha with ha | ha <;> simp [hashed, ha]

end Digest

namespace StreamObject

/-- The byte strings that are hashed when the chain over some objects is computed. -/
def hashed (seed : Octets 48) (objects : List StreamObject) : List (List UInt8) :=
  Digest.hashed seed (objects.map content)

theorem eq_of_map_content {xs ys : List StreamObject} (hxs : ∀ o ∈ xs, o.Fits)
    (hys : ∀ o ∈ ys, o.Fits) (h : xs.map content = ys.map content) : xs = ys := by
  induction xs generalizing ys with
  | nil => exact (List.map_eq_nil_iff.1 h.symm).symm
  | cons x xs ih =>
    obtain ⟨y, ys, rfl, hy, hrest⟩ := List.map_eq_cons_iff.1 h.symm
    rw [List.forall_mem_cons] at hxs hys
    rw [content_inj hxs.1 hys.1 hy.symm, ih hxs.2 hys.2 hrest.symm]

/-- The chain of records is tamper-evident. What is streamed for a transaction can be told from the
bytes that the running hash absorbs. Two sequences of the same length that lead from one seed to one
head are equal, or two different byte strings among those that were hashed for them have the same
digest. -/
theorem chain_tamper_evident :
    (∀ o o' : StreamObject, o.Fits → o'.Fits → o.content = o'.content → o = o') ∧
    ∀ (seed : Octets 48) (xs ys : List StreamObject), (∀ o ∈ xs ++ ys, o.Fits) →
      xs.length = ys.length → chain seed xs = chain seed ys →
      xs = ys ∨ Digest.Collides (hashed seed xs ++ hashed seed ys) := by
  refine ⟨fun o o' => content_inj, fun seed xs ys hfits hlength hhead => ?_⟩
  have hitems : (xs.map content).length = (ys.map content).length := by
    rw [List.length_map, List.length_map, hlength]
  rcases Digest.chain_eq hitems hhead with ⟨-, hcontent⟩ | hcollides
  · obtain ⟨hxs, hys⟩ := List.forall_mem_append.1 hfits
    exact .inl (eq_of_map_content hxs hys hcontent)
  · exact .inr hcollides

/-- What is streamed for a transaction of account 0.0.2 at second 100 that is charged a fee. -/
def charged (fee : UInt64) : StreamObject :=
  ⟨⟨⟨.ok, none, none⟩, Digest.sha384 [7], ⟨100, 0⟩, ⟨.ofNum 2, ⟨100, 0⟩, false⟩, "coffee", fee,
    [⟨.ofNum 2, -5⟩, ⟨.ofNum 3, 5⟩], none⟩, [7], ⟨100, 0⟩⟩

/-- The head after a record tells a fee of 10 from one of 11. -/
theorem chain_tamper_evident_fee :
    let seed := Octets.replicate 48 0
    let xs := [charged 10]
    let ys := [charged 11]
    (∀ o ∈ xs ++ ys, o.Fits) ∧ xs.length = ys.length ∧
      ¬ Digest.Collides (hashed seed xs ++ hashed seed ys) ∧
      charged 10 ≠ charged 11 ∧ (charged 10).content ≠ (charged 11).content ∧
      chain seed xs ≠ chain seed ys := by
  intro seed xs ys
  have hfits : ∀ o ∈ xs ++ ys, o.Fits := by decide +kernel
  have hfree : ¬ Digest.Collides (hashed seed xs ++ hashed seed ys) := by decide +kernel
  have hne : charged 10 ≠ charged 11 := by decide +kernel
  obtain ⟨hinjective, hchain⟩ := chain_tamper_evident
  refine ⟨hfits, rfl, hfree, hne, fun hcontent => ?_, fun hhead => ?_⟩
  · exact hne (hinjective _ _ (hfits _ (by simp [xs])) (hfits _ (by simp [ys])) hcontent)
  · rcases hchain seed xs ys hfits rfl hhead with hsame | hcollides
    · exact hne (List.cons.inj hsame).1
    · exact hfree hcollides

end StreamObject

end ConsensusLedger
