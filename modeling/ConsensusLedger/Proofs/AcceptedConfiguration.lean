import ConsensusLedger.Node
import ConsensusLedger.Proofs.ConsensusOrder
import ConsensusLedger.Proofs.Genesis

/-!
What an accepted configuration yields. The account that fees go to and those of all members can be used
from the start. Whether anybody can submit is another matter: the members are listed, of those with one
number only the last one counts, and the one with stake need not be the last. A network in which nobody
has stake drops whatever is delivered.
-/

namespace ConsensusLedger

/-- The last member that is listed with the number has stake. -/
def NetworkConfig.HasStake (c : NetworkConfig) (id : MemberId) : Prop :=
  ∃ before m after, c.members = before ++ m :: after ∧ m.id = id ∧ 0 < m.stake ∧
    ∀ m' ∈ after, m'.id ≠ id

namespace NodeConfig

variable {c : NodeConfig} {id : MemberId} {address : NodeAddress}

/-- The address book has the last member that is listed with a number. -/
theorem get?_addressBook : c.addressBook.get? id = some address ↔
    ∃ before m after, c.network.members = before ++ m :: after ∧ m.id = id ∧
      ⟨m.stake, .ofNum m.account⟩ = address ∧ ∀ m' ∈ after, m'.id ≠ id := by
  rw [addressBook, Table.get?_ofList_eq_some_iff]
  constructor
  · rintro ⟨before, after, hsplit, hafter⟩
    obtain ⟨ms, ms', hmembers, -, hrest⟩ := List.map_eq_append_iff.1 hsplit
    obtain ⟨m, ms'', rfl, hm, rfl⟩ := List.map_eq_cons_iff.1 hrest
    obtain ⟨hid, haddress⟩ := Prod.mk.inj hm
    exact ⟨ms, m, ms'', hmembers, hid, haddress,
      fun m' hm' => hafter _ (List.mem_map_of_mem hm')⟩
  · rintro ⟨before, m, after, hmembers, rfl, rfl, hafter⟩
    refine ⟨_, _, by rw [hmembers, List.map_append, List.map_cons], fun e he => ?_⟩
    obtain ⟨m', hm', rfl⟩ := List.mem_map.1 he
    exact hafter m' hm'

theorem staked_addressBook : c.addressBook.Staked id ↔ c.network.HasStake id := by
  simp only [AddressBook.Staked, get?_addressBook]
  constructor
  · rintro ⟨address, ⟨before, m, after, hmembers, hid, rfl, hafter⟩, hstake⟩
    exact ⟨before, m, after, hmembers, hid, hstake, hafter⟩
  · rintro ⟨before, m, after, hmembers, hid, hstake, hafter⟩
    exact ⟨_, ⟨before, m, after, hmembers, hid, rfl, hafter⟩, hstake⟩

/-- The checks are passed only with a member that has stake. -/
theorem exists_stake_of_validate (h : c.validate = .ok ()) : ∃ m ∈ c.network.members, 0 < m.stake := by
  by_contra hnone
  have hfault : ConfigFault.noStake ∈ c.faults := by
    refine List.mem_map.2 ⟨(true, .noStake), List.mem_filter.2 ⟨?_, rfl⟩, rfl⟩
    have hany : c.network.members.any (0 < ·.stake) = false := by simpa using hnone
    simp [checks, hany]
  rw [validate] at h
  split at h
  · rename_i hfaults
    rw [hfaults] at hfault
    cases hfault
  · cases h

/-- Where the members have distinct numbers, each member is the last one with its number. -/
theorem hasStake_of_nodup (hdistinct : (c.network.members.map (·.id)).Nodup) {m : MemberConfig}
    (hm : m ∈ c.network.members) (hstake : 0 < m.stake) : c.network.HasStake m.id := by
  obtain ⟨before, after, hsplit⟩ := List.append_of_mem hm
  rw [hsplit] at hdistinct
  exact ⟨before, m, after, hsplit, rfl, hstake, ne_of_nodup_map hdistinct⟩

end NodeConfig

namespace Node

variable {c : NodeConfig} {n : Node}

/-- A node starts with a configuration that passes its checks, from the genesis that it describes. -/
theorem start_eq_ok (h : start c = .ok n) : c.validate = .ok () ∧ n.rules = c.rules ∧
    ∃ g, c.genesis.build c.requiredAccounts = .ok g ∧ n.processor.ledger = g.ledger := by
  unfold start at h
  split at h
  · cases h
  · rename_i hvalid
    split at h
    · cases h
    · rename_i g hbuild
      cases h
      exact ⟨hvalid, rfl, g, hbuild, rfl⟩

/-- Where nobody has stake, everything is dropped. -/
theorem after_of_no_stake (hnone : ∀ id, ¬ n.rules.book.Staked id) (ds : List Delivery) :
    n.records ds = [] ∧ n.after ds = n := by
  induction ds using List.reverseRecOn with
  | nil => exact ⟨rfl, rfl⟩
  | append_singleton ds d ih =>
    obtain ⟨hrecords, hafter⟩ := ih
    obtain ⟨hnil, hsame⟩ := Processor.incorporate_nil_iff n.rules n.processor d
    have hdropped := hnil.2 (.unstaked (hnone d.member))
    have hdeliver := n.deliver_after ds d
    rw [hafter] at hdeliver
    constructor
    · rw [records_concat, hrecords, hafter, hdeliver, hdropped, List.append_nil]
    · have hprocessor := n.processor_after_concat ds d
      rw [hafter, hdeliver, hsame hdropped] at hprocessor
      have hrules := n.rules_after (ds ++ [d])
      cases hn : n.after (ds ++ [d])
      rw [hn] at hprocessor hrules
      cases hrules
      cases hprocessor
      rfl

/-- What an accepted configuration yields. A number has stake exactly if the last member listed with it
has, so some number has stake if the members' numbers are distinct. A delivery that can be parsed passes
the sanity check, and brings records, whenever its member has stake and its time is later than the last
one. If no number has stake, nothing that is delivered has any effect. The accounts of all members in the
address book, and the one that fees go to, can be used. -/
theorem accepted_configuration (c : NodeConfig) (n : Node) (h : start c = .ok n) :
    (∀ id, n.rules.book.Staked id ↔ c.network.HasStake id) ∧
    ((c.network.members.map (·.id)).Nodup → ∃ id, n.rules.book.Staked id) ∧
    (∀ ds d txn, n.rules.book.Staked d.member → Envelope.ofSigned d.bytes = .ok txn →
      (∀ t, (n.after ds).processor.clock.lastHandled = some t →
        (Processor.effectiveTime txn d.time).isAfter t = true) →
      (∃ address, Gate.sanityCheck n.rules.book (Processor.effectiveTime txn d.time)
        (n.after ds).processor.clock.lastHandled d.member = .ok address) ∧
      ((n.after ds).deliver d).answer ≠ []) ∧
    ((∀ id, ¬ n.rules.book.Staked id) → ∀ ds, n.records ds = [] ∧ n.after ds = n) ∧
    (∀ id address, n.rules.book.get? id = some address →
      n.processor.ledger.contains address.account = true) ∧
    n.processor.ledger.contains n.rules.funding = true := by
  obtain ⟨hvalid, hrules, g, hbuild, hledger⟩ := start_eq_ok h
  have hbook : n.rules.book = c.addressBook := by
    rw [hrules]
    rfl
  have hstaked (id : MemberId) : n.rules.book.Staked id ↔ c.network.HasStake id := by
    rw [hbook, NodeConfig.staked_addressBook]
  refine ⟨hstaked, ?_, ?_, after_of_no_stake, ?_, ?_⟩
  · intro hdistinct
    obtain ⟨m, hm, hstake⟩ := NodeConfig.exists_stake_of_validate hvalid
    exact ⟨m.id, (hstaked m.id).2 (NodeConfig.hasStake_of_nodup hdistinct hm hstake)⟩
  · intro ds d txn hmember hparse htime
    obtain ⟨address, hsane⟩ := Gate.sanityCheck_eq_ok_iff.2 ⟨htime, hmember⟩
    refine ⟨⟨address, hsane⟩, fun hnil => ?_⟩
    rw [deliver_after] at hnil
    exact (Processor.not_drops_iff _ _ d).2 ⟨txn, address, hparse, hsane⟩
      ((Processor.incorporate_nil_iff _ _ d).1.1 hnil)
  · intro id address haddress
    rw [hbook] at haddress
    obtain ⟨before, m, after, hmembers, -, rfl, -⟩ := NodeConfig.get?_addressBook.1 haddress
    rw [hledger]
    refine GenesisConfig.contains_required hbuild ?_
    simp [NodeConfig.requiredAccounts, hmembers]
  · rw [hledger, hrules]
    exact GenesisConfig.contains_required hbuild List.mem_cons_self

end Node

/-- By default a node is the only member, and a record comes of its first delivery. -/
theorem Node.accepted_configuration_default : ∃ n, start {} = .ok n ∧ n.rules.book.Staked 0 ∧
    (n.deliver Sample.creation).answer ≠ [] ∧ n.processor.ledger.contains (.ofNum 98) = true := by
  have hparsed : (Envelope.ofSigned Sample.creation.bytes).toOption.isSome = true := by
    decide +kernel
  refine ⟨_, rfl, ?_⟩
  obtain ⟨hstaked, -, hdelivered, -, -, hfunding⟩ := accepted_configuration {} _ rfl
  have hmember := (hstaked 0).2 ⟨[], ⟨0, 1, 3⟩, [], rfl, rfl, by decide, nofun⟩
  refine ⟨hmember, ?_, hfunding⟩
  cases hparse : Envelope.ofSigned Sample.creation.bytes with
  | error e =>
    rw [hparse] at hparsed
    cases hparsed
  | ok txn => exact (hdelivered [] Sample.creation txn hmember hparse nofun).2

namespace Sample

/-- The only member is listed twice, the second time without stake. -/
def listedTwice : NodeConfig := { network := { members := [⟨0, 1, 3⟩, ⟨0, 0, 3⟩] } }

end Sample

/-- A configuration is accepted, although nobody can submit. -/
theorem Node.accepted_without_stake :
    ∃ n, start Sample.listedTwice = .ok n ∧ ∀ id, ¬ n.rules.book.Staked id := by
  refine ⟨_, rfl, ?_⟩
  rintro id ⟨address, haddress, hstake⟩
  have hentries : Sample.listedTwice.addressBook.entries = [(0, ⟨0, .ofNum 3⟩)] := by decide
  have hmem : (id, address) ∈ Sample.listedTwice.addressBook.entries :=
    (Table.get?_eq_some_iff _).1 haddress
  rw [hentries, List.mem_singleton] at hmem
  cases hmem
  exact absurd hstake (by decide)

end ConsensusLedger
