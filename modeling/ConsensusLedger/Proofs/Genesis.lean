import ConsensusLedger.Genesis
import ConsensusLedger.Proofs.Ledger.Operation
import ConsensusLedger.Proofs.Ledger.Supply
import ConsensusLedger.Proofs.Text.Hex

/-!
Genesis. A ledger is founded exactly if the accounts agree with each other, the required ones are among
them and the seed can be read; then it holds the listed accounts and no other, and the supply counts all
coins. Otherwise the first thing that is wrong is reported: account by account, then of the required
accounts, then of the seed.
-/

namespace ConsensusLedger

/-- The text gives the bytes as hexadecimal digits, in either case. -/
def Octets.SpelledBy {n : Nat} (o : Octets n) (text : String) : Prop :=
  text.toLower = Text.hex o.val

/-- What is wrong with a text that spells no byte string of length `n`. -/
def OctetsFault.OccursIn (n : Nat) (text : String) : OctetsFault → Prop
  | hex fault => fault.OccursIn text
  | length expected actual =>
    expected = n ∧ actual ≠ n ∧ ∃ bytes, text.toLower = Text.hex bytes ∧ bytes.length = actual

namespace Octets

variable {n : Nat} {text : String}

theorem ofHex_eq_ok_iff {o : Octets n} : ofHex n text = .ok o ↔ o.SpelledBy text := by
  rw [SpelledBy, ← Text.unhex_eq_ok_iff, ofHex]
  cases Text.unhex text with
  | error fault => simp
  | ok bytes =>
    rw [Except.ok.injEq, ← ofList?_eq_some_iff]
    dsimp only
    cases ofList? n bytes <;> simp

theorem ofHex_eq_error_iff {fault : OctetsFault} :
    ofHex n text = .error fault ↔ fault.OccursIn n text := by
  cases hread : Text.unhex text with
  | error e =>
    have hnone (bytes : List UInt8) : text.toLower ≠ Text.hex bytes := by
      rw [ne_eq, ← Text.unhex_eq_ok_iff, hread]
      exact nofun
    cases fault with
    | hex fault => simp [OctetsFault.OccursIn, ofHex, hread, ← Text.unhex_eq_error_iff]
    | length expected actual => simp [OctetsFault.OccursIn, ofHex, hread, hnone]
  | ok bytes =>
    have hbytes (bytes' : List UInt8) : text.toLower = Text.hex bytes' ↔ bytes = bytes' := by
      rw [← Text.unhex_eq_ok_iff, hread, Except.ok.injEq]
    have hlength : ofHex n text = .error fault ↔
        bytes.length ≠ n ∧ .length n bytes.length = fault := by
      by_cases hlength : bytes.length = n <;> simp [ofHex, ofList?, hread, hlength]
    rw [hlength]
    cases fault with
    | hex fault => simp [OctetsFault.OccursIn, hread, ← Text.unhex_eq_error_iff]
    | length expected actual =>
      simp only [OctetsFault.OccursIn, OctetsFault.length.injEq, hbytes, exists_eq_left']
      constructor
      · rintro ⟨hne, rfl, rfl⟩
        exact ⟨rfl, hne, rfl⟩
      · rintro ⟨rfl, hne, rfl⟩
        exact ⟨hne, rfl, rfl⟩

end Octets

namespace GenesisAccount

/-- The key that a listed account is given: the public key that is spelled, or, where there is none, a
list without members. -/
inductive Keyed (a : GenesisAccount) : Key → Prop
  | keyless (h : a.publicKey = none) : Keyed a (.list [])
  | spelled {text : String} {o : PublicKey} (h : a.publicKey = some text) (ho : o.SpelledBy text) :
    Keyed a (.ed25519 o)

/-- The public key can be read, if there is one. -/
def Readable (a : GenesisAccount) : Prop :=
  ∀ text, a.publicKey = some text → ∃ o : PublicKey, o.SpelledBy text

/-- What an account is when the ledger is founded. -/
structure Opens (a : GenesisAccount) (account : Account) : Prop where
  balance : account.balance = a.balance
  keyed : a.Keyed account.key
  undeleted : account.deleted = false

variable {a : GenesisAccount}

theorem Keyed.eq_of_keyless {key : Key} (h : a.Keyed key) (hnone : a.publicKey = none) :
    key = .list [] := by
  cases h with
  | keyless => rfl
  | spelled hsome => cases hnone.symm.trans hsome

theorem key_eq_ok_iff {key : Key} : a.key = .ok key ↔ a.Keyed key := by
  cases htext : a.publicKey with
  | none =>
    simp only [GenesisAccount.key, htext, Except.ok.injEq]
    constructor
    · rintro rfl
      exact .keyless htext
    · intro hkeyed
      exact (hkeyed.eq_of_keyless htext).symm
  | some text =>
    have hkey : a.key = .ok key ↔ ∃ o, Octets.ofHex 32 text = .ok o ∧ .ed25519 o = key := by
      simp only [GenesisAccount.key, htext]
      cases Octets.ofHex 32 text <;> simp [Except.map, Except.mapError]
    rw [hkey]
    constructor
    · rintro ⟨o, ho, rfl⟩
      exact .spelled htext (Octets.ofHex_eq_ok_iff.1 ho)
    · rintro (hnone | ⟨hsome, ho⟩)
      · cases htext.symm.trans hnone
      · cases htext.symm.trans hsome
        exact ⟨_, Octets.ofHex_eq_ok_iff.2 ho, rfl⟩

theorem key_eq_error_iff {e : GenesisError} : a.key = .error e ↔
    ∃ text fault, a.publicKey = some text ∧ fault.OccursIn 32 text ∧ .invalidKey a.num fault = e := by
  simp only [← Octets.ofHex_eq_error_iff, key]
  cases a.publicKey with
  | none => simp
  | some text => cases hread : Octets.ofHex 32 text <;> simp [hread, Except.map, Except.mapError]

theorem readable_iff : a.Readable ↔ ∃ key, a.key = .ok key := by
  simp only [key_eq_ok_iff]
  constructor
  · intro hread
    cases htext : a.publicKey with
    | none => exact ⟨_, .keyless htext⟩
    | some text =>
      obtain ⟨o, ho⟩ := hread text htext
      exact ⟨_, .spelled htext ho⟩
  · rintro ⟨key, hnone | ⟨hsome, ho⟩⟩ text htext
    · cases htext.symm.trans hnone
    · cases htext.symm.trans hsome
      exact ⟨_, ho⟩

/-- What the account becomes, if its public key can be read. -/
def founded (a : GenesisAccount) : Account := ⟨a.balance, a.key.toOption.getD (.list []), false⟩

theorem opens_iff (hread : a.Readable) {account : Account} : a.Opens account ↔ a.founded = account := by
  obtain ⟨key, hkey⟩ := readable_iff.1 hread
  constructor
  · rintro ⟨hbalance, hkeyed, hdeleted⟩
    cases hkey.symm.trans (key_eq_ok_iff.2 hkeyed)
    obtain ⟨balance, key, deleted⟩ := account
    simp_all [founded, Except.toOption]
  · rintro rfl
    refine ⟨rfl, ?_, rfl⟩
    rw [founded, hkey]
    exact key_eq_ok_iff.1 hkey

theorem opens_founded (hread : a.Readable) : a.Opens a.founded := (opens_iff hread).2 rfl

/-- The sum of the balances. -/
def total (accounts : List GenesisAccount) : Nat := (accounts.map (·.balance.toNat)).sum

/-- The accounts can stand in one ledger. -/
structure Compatible (accounts : List GenesisAccount) : Prop where
  distinct : (accounts.map (·.num)).Nodup
  bounded : total accounts ≤ 0xffffffffffffffff
  readable : ∀ a ∈ accounts, a.Readable

/-- The first thing wrong with an account that stands after others. -/
inductive Violates (before : List GenesisAccount) (a : GenesisAccount) : GenesisError → Prop
  | duplicate (hnum : a.num ∈ before.map (·.num)) : Violates before a (.duplicateAccount a.num)
  | overflow (hnum : a.num ∉ before.map (·.num))
    (htotal : 0xffffffffffffffff < total before + a.balance.toNat) : Violates before a .supplyOverflow
  | key {text : String} {fault : OctetsFault} (hnum : a.num ∉ before.map (·.num))
    (htotal : total before + a.balance.toNat ≤ 0xffffffffffffffff) (htext : a.publicKey = some text)
    (hfault : fault.OccursIn 32 text) : Violates before a (.invalidKey a.num fault)

variable {before accounts : List GenesisAccount}

@[simp] theorem total_append (xs ys : List GenesisAccount) :
    total (xs ++ ys) = total xs + total ys := by
  simp [total]

@[simp] theorem total_singleton (a : GenesisAccount) : total [a] = a.balance.toNat := by
  simp [total]

theorem compatible_nil : Compatible [] := ⟨.nil, Nat.zero_le _, nofun⟩

theorem Compatible.prior {after : List GenesisAccount} (h : Compatible (before ++ after)) :
    Compatible before := by
  obtain ⟨hdistinct, hbounded, hreadable⟩ := h
  rw [List.map_append] at hdistinct
  rw [total_append] at hbounded
  exact ⟨hdistinct.of_append_left, by omega, fun a ha => hreadable a (List.mem_append_left _ ha)⟩

/-- What one more account has to meet. -/
theorem compatible_concat_iff : Compatible (before ++ [a]) ↔ Compatible before ∧
    a.num ∉ before.map (·.num) ∧ total before + a.balance.toNat ≤ 0xffffffffffffffff ∧ a.Readable := by
  constructor
  · intro h
    have hprior := h.prior
    obtain ⟨hdistinct, hbounded, hreadable⟩ := h
    rw [List.map_append, List.map_singleton, List.nodup_append_comm] at hdistinct
    rw [total_append, total_singleton] at hbounded
    exact ⟨hprior, (List.nodup_cons.1 hdistinct).1, hbounded, hreadable a (by simp)⟩
  · rintro ⟨⟨hdistinct, -, hreadable⟩, hnum, hbounded, hread⟩
    refine ⟨?_, by simpa using hbounded, ?_⟩
    · rw [List.map_append, List.map_singleton, List.nodup_append_comm]
      exact List.nodup_cons.2 ⟨hnum, hdistinct⟩
    · intro b hb
      rcases List.mem_append.1 hb with hb | hb
      · exact hreadable b hb
      · rwa [List.mem_singleton.1 hb]

/-- One more account is compatible, or something is wrong with it. -/
theorem compatible_or_violates (h : Compatible before) (a : GenesisAccount) :
    Compatible (before ++ [a]) ∨ ∃ e, Violates before a e := by
  by_cases hnum : a.num ∈ before.map (·.num)
  · exact .inr ⟨_, .duplicate hnum⟩
  by_cases htotal : total before + a.balance.toNat ≤ 0xffffffffffffffff
  · cases hkey : a.key with
    | ok key =>
      exact .inl (compatible_concat_iff.2 ⟨h, hnum, htotal, readable_iff.2 ⟨key, hkey⟩⟩)
    | error e =>
      obtain ⟨text, fault, htext, hfault, -⟩ := key_eq_error_iff.1 hkey
      exact .inr ⟨_, .key hnum htotal htext hfault⟩
  · exact .inr ⟨_, .overflow hnum (Nat.lt_of_not_le htotal)⟩

/-- Accounts that are not compatible have a first one with which something is wrong. -/
theorem compatible_or_first (accounts : List GenesisAccount) : Compatible accounts ∨
    ∃ before a after e, accounts = before ++ a :: after ∧ Compatible before ∧ Violates before a e := by
  induction accounts using List.reverseRecOn with
  | nil => exact .inl compatible_nil
  | append_singleton accounts a ih =>
    rcases ih with hclean | ⟨before, b, after, e, rfl, hclean, hviolates⟩
    · rcases compatible_or_violates hclean a with hmore | ⟨e, hviolates⟩
      · exact .inl hmore
      · exact .inr ⟨accounts, a, [], e, rfl, hclean, hviolates⟩
    · exact .inr ⟨before, b, after ++ [a], e, by simp, hclean, hviolates⟩

end GenesisAccount

namespace GenesisConfig

open GenesisAccount

variable {c : GenesisConfig} {required : List AccountId} {before : List GenesisAccount}
  {seen : List UInt64} {supply : UInt64} {a : GenesisAccount}

/-- What is known after some accounts: their numbers and the sum of their balances. -/
structure Follows (before : List GenesisAccount) (seen : List UInt64) (supply : UInt64) : Prop where
  seen : ∀ num, num ∈ seen ↔ num ∈ before.map (·.num)
  supply : supply.toNat = total before

theorem follows_nil : Follows [] [] 0 := ⟨fun _ => Iff.rfl, rfl⟩

/-- The entry that a listed account becomes. -/
def entry (a : GenesisAccount) : AccountId × Account := (.ofNum a.num, a.founded)

/-- A compatible account is enrolled, and its number and balance are known from then on. -/
theorem enroll_compatible (hfollows : Follows before seen supply) (h : Compatible (before ++ [a])) :
    ∃ more, Follows (before ++ [a]) (a.num :: seen) more ∧
      enroll seen supply a = .ok (a.founded, more) := by
  obtain ⟨-, hnum, htotal, hread⟩ := compatible_concat_iff.1 h
  obtain ⟨key, hkey⟩ := readable_iff.1 hread
  rw [← hfollows.seen] at hnum
  rw [← hfollows.supply] at htotal
  obtain ⟨more, hmore⟩ := balanceOf?_of_range (n := supply.toNat + a.balance.toNat) (by omega)
    (by omega)
  have hsum := balanceOf?_eq_some_iff.1 hmore
  refine ⟨more, ⟨fun num => ?_, ?_⟩, ?_⟩
  · rw [List.mem_cons, hfollows.seen, List.map_append, List.mem_append, List.map_singleton,
      List.mem_singleton, or_comm]
  · rw [total_append, total_singleton, ← hfollows.supply]
    omega
  · simp only [enroll, hnum, if_false, hmore, hkey, founded, Except.toOption, Option.getD_some]

theorem enroll_violates {e : GenesisError} (hfollows : Follows before seen supply)
    (h : Violates before a e) : enroll seen supply a = .error e := by
  cases h with
  | duplicate hnum => simp only [enroll, (hfollows.seen _).2 hnum, if_true]
  | overflow hnum htotal =>
    rw [← hfollows.seen] at hnum
    rw [← hfollows.supply] at htotal
    have hnone : balanceOf? (supply.toNat + a.balance.toNat) = none := by
      rw [balanceOf?, if_neg]
      omega
    simp only [enroll, hnum, if_false, hnone]
  | key hnum htotal htext hfault =>
    rw [← hfollows.seen] at hnum
    rw [← hfollows.supply] at htotal
    have hkey := key_eq_error_iff.2 ⟨_, _, htext, hfault, rfl⟩
    obtain ⟨more, hmore⟩ := balanceOf?_of_range (n := supply.toNat + a.balance.toNat) (by omega)
      (by omega)
    simp only [enroll, hnum, if_false, hmore, hkey]

theorem install_compatible {rest : List GenesisAccount} (hfollows : Follows before seen supply)
    (h : Compatible (before ++ rest)) : ∃ more, more.toNat = total (before ++ rest) ∧
      install seen supply rest = .ok (rest.map entry, more) := by
  induction rest generalizing before seen supply with
  | nil => exact ⟨supply, by rw [List.append_nil]; exact hfollows.supply, rfl⟩
  | cons a rest ih =>
    rw [List.append_cons] at h ⊢
    obtain ⟨more, hnext, henroll⟩ := enroll_compatible hfollows h.prior
    obtain ⟨all, hall, hinstall⟩ := ih hnext h
    refine ⟨all, hall, ?_⟩
    simp only [install, henroll, hinstall, List.map_cons, entry]

/-- The first thing wrong with an account is reported, whatever comes after it. -/
theorem install_violates {middle : List GenesisAccount} {e : GenesisError}
    (hfollows : Follows before seen supply) (h : Compatible (before ++ middle))
    (hviolates : Violates (before ++ middle) a e) (after : List GenesisAccount) :
    install seen supply (middle ++ a :: after) = .error e := by
  induction middle generalizing before seen supply with
  | nil =>
    rw [List.append_nil] at hviolates
    simp only [List.nil_append, install, enroll_violates hfollows hviolates]
  | cons b middle ih =>
    rw [List.append_cons] at h hviolates
    obtain ⟨more, hnext, henroll⟩ := enroll_compatible hfollows h.prior
    simp only [List.cons_append, install, henroll, ih hnext h hviolates]

/-- The account's number is among the accounts. -/
def Lists (c : GenesisConfig) (id : AccountId) : Prop := ∃ a ∈ c.accounts, a.num = id.num

/-- What a configuration has to meet for a ledger to be founded. -/
structure Sound (c : GenesisConfig) (required : List AccountId) : Prop where
  accounts : Compatible c.accounts
  listed : ∀ id ∈ required, c.Lists id
  seed : ∀ text, c.seed = some text → ∃ o : Octets 48, o.SpelledBy text

/-- The first thing wrong with a configuration: of an account, of a required account, or of the
seed. -/
inductive FirstFault (c : GenesisConfig) (required : List AccountId) : GenesisError → Prop
  | account {before : List GenesisAccount} {a : GenesisAccount} {after : List GenesisAccount}
    {e : GenesisError} (hat : c.accounts = before ++ a :: after) (hbefore : Compatible before)
    (h : Violates before a e) : FirstFault c required e
  | required {before : List AccountId} {id : AccountId} {after : List AccountId}
    (haccounts : Compatible c.accounts) (hat : required = before ++ id :: after)
    (hbefore : ∀ id' ∈ before, c.Lists id') (h : ¬ c.Lists id) :
    FirstFault c required (.missingAccount id)
  | seed {text : String} {fault : OctetsFault} (haccounts : Compatible c.accounts)
    (hlisted : ∀ id ∈ required, c.Lists id) (hseed : c.seed = some text)
    (h : fault.OccursIn 48 text) : FirstFault c required (.invalidSeed fault)

/-- The seed of the running hash: the one that is spelled, or else all zeros. -/
def Seeds (c : GenesisConfig) (seed : Octets 48) : Prop :=
  match c.seed with
  | none => seed = Octets.replicate 48 0
  | some text => seed.SpelledBy text

/-- The state that a configuration describes. -/
structure Describes (c : GenesisConfig) (g : Genesis) : Prop where
  accounts : ∀ id account, g.ledger.accounts.get? id = some account ↔
    ∃ a ∈ c.accounts, id = .ofNum a.num ∧ a.Opens account
  keyless : ∀ a ∈ c.accounts, a.publicKey = none → ∃ key, g.ledger.key? (.ofNum a.num) = some key ∧
    ∀ signed, key.isActive signed = false
  closed : g.ledger.inTransaction = false
  supply : g.supply.toNat = g.ledger.supply
  seed : c.Seeds g.seed

theorem seedOctets_eq_ok_iff {seed : Octets 48} : c.seedOctets = .ok seed ↔ c.Seeds seed := by
  simp only [seedOctets, Seeds]
  cases c.seed with
  | none => simp [eq_comm]
  | some text =>
    dsimp only
    rw [← Octets.ofHex_eq_ok_iff]
    cases hread : Octets.ofHex 48 text <;> simp [Except.mapError]

theorem seedOctets_eq_error_iff {e : GenesisError} : c.seedOctets = .error e ↔
    ∃ text fault, c.seed = some text ∧ fault.OccursIn 48 text ∧ .invalidSeed fault = e := by
  simp only [← Octets.ofHex_eq_error_iff, seedOctets]
  cases c.seed with
  | none => simp
  | some text => cases hread : Octets.ofHex 48 text <;> simp [hread, Except.mapError]

theorem find?_unlisted_eq_none :
    (required.find? fun id => !c.accounts.any (·.num = id.num)) = none ↔
      ∀ id ∈ required, c.Lists id := by
  simp [Lists]

theorem find?_unlisted_eq_some {id : AccountId} :
    (required.find? fun id => !c.accounts.any (·.num = id.num)) = some id ↔ ¬ c.Lists id ∧
      ∃ before after, required = before ++ id :: after ∧ ∀ id' ∈ before, c.Lists id' := by
  rw [List.find?_eq_some_iff_append]
  simp [Lists]

/-- Either a configuration is sound, or something is the first thing wrong with it. -/
theorem sound_or_firstFault (c : GenesisConfig) (required : List AccountId) :
    c.Sound required ∨ ∃ e, FirstFault c required e := by
  rcases compatible_or_first c.accounts with haccounts | ⟨before, a, after, e, hat, hbefore, h⟩
  · cases hfind : required.find? fun id => !c.accounts.any (·.num = id.num) with
    | some id =>
      obtain ⟨hunlisted, before, after, hat, hbefore⟩ := find?_unlisted_eq_some.1 hfind
      exact .inr ⟨_, .required haccounts hat hbefore hunlisted⟩
    | none =>
      have hlisted := find?_unlisted_eq_none.1 hfind
      cases hseed : c.seedOctets with
      | ok seed =>
        refine .inl ⟨haccounts, hlisted, fun text htext => ⟨seed, ?_⟩⟩
        simpa only [Seeds, htext] using seedOctets_eq_ok_iff.1 hseed
      | error e =>
        obtain ⟨text, fault, htext, hfault, -⟩ := seedOctets_eq_error_iff.1 hseed
        exact .inr ⟨_, .seed haccounts hlisted htext hfault⟩
  · exact .inr ⟨e, .account hat hbefore h⟩

theorem build_firstFault {e : GenesisError} (h : FirstFault c required e) :
    c.build required = .error e := by
  cases h with
  | account hat hbefore h =>
    simp only [build, hat, install_violates follows_nil hbefore h]
  | required haccounts hat hbefore h =>
    obtain ⟨supply, -, hinstall⟩ := install_compatible follows_nil haccounts
    have hfind := find?_unlisted_eq_some.2 ⟨h, _, _, hat, hbefore⟩
    simp only [build, hinstall, hfind]
  | seed haccounts hlisted hseed h =>
    obtain ⟨supply, -, hinstall⟩ := install_compatible follows_nil haccounts
    have hfind := find?_unlisted_eq_none.2 hlisted
    have hrefused := seedOctets_eq_error_iff.2 ⟨_, _, hseed, h, rfl⟩
    simp only [build, hinstall, hfind, hrefused]

/-- The ledger has the entries of the accounts, and no other. -/
theorem entries_founded_perm {accounts : List GenesisAccount} (h : Compatible accounts) :
    (Ledger.ofAccounts (accounts.map entry)).accounts.entries.Perm (accounts.map entry) := by
  have hnums : ((accounts.map (·.num)).map EntityId.ofNum).Nodup :=
    h.distinct.map fun n m heq => congrArg EntityId.num heq
  rw [Collection.entries, Ledger.table_ofAccounts]
  apply Table.entries_ofList_perm
  rwa [List.map_map] at hnums ⊢

/-- The ledger has each account as it opens, and no other. -/
theorem get?_founded {accounts : List GenesisAccount} (h : Compatible accounts) (id : AccountId)
    (account : Account) :
    (Ledger.ofAccounts (accounts.map entry)).accounts.get? id = some account ↔
      ∃ a ∈ accounts, id = .ofNum a.num ∧ a.Opens account := by
  have hmem : (Ledger.ofAccounts (accounts.map entry)).accounts.get? id = some account ↔
      (id, account) ∈ accounts.map entry :=
    (Table.get?_eq_some_iff _).trans (entries_founded_perm h).mem_iff
  rw [hmem, List.mem_map]
  refine exists_congr fun a => and_congr_right fun ha => ?_
  rw [opens_iff (h.readable a ha), entry, Prod.mk.injEq, eq_comm (a := id)]

theorem build_sound (h : c.Sound required) : ∃ g, c.build required = .ok g ∧ c.Describes g := by
  obtain ⟨supply, hsupply, hinstall⟩ := install_compatible follows_nil h.accounts
  have hfind := find?_unlisted_eq_none.2 h.listed
  obtain ⟨seed, hseed⟩ : ∃ seed, c.Seeds seed := by
    unfold Seeds
    cases hseed : c.seed with
    | none => exact ⟨_, rfl⟩
    | some text => exact h.seed text hseed
  have hget := get?_founded h.accounts
  refine ⟨⟨.ofAccounts (c.accounts.map entry), seed, supply⟩, ?_, hget, ?_, ?_, ?_, hseed⟩
  · simp only [build, hinstall, hfind, seedOctets_eq_ok_iff.2 hseed]
  · intro a ha hkeyless
    have hopens := opens_founded (h.accounts.readable a ha)
    have hfound := (hget _ _).2 ⟨a, ha, rfl, hopens⟩
    refine ⟨.list [], ?_, fun _ => rfl⟩
    simp [Ledger.key?, Ledger.account?, hfound, hopens.undeleted, hopens.keyed.eq_of_keyless hkeyless]
  · rw [Ledger.inTransaction, Ledger.changes_ofAccounts]
    rfl
  · rw [hsupply, List.nil_append, Ledger.supply, ((entries_founded_perm h.accounts).map _).sum_eq,
      List.map_map]
    rfl

/-- What was built is described, by a configuration that is sound. -/
theorem build_eq_ok {g : Genesis} (h : c.build required = .ok g) :
    c.Sound required ∧ c.Describes g := by
  rcases c.sound_or_firstFault required with hsound | ⟨e, hfault⟩
  · obtain ⟨g', hbuild, hdescribes⟩ := build_sound hsound
    cases h.symm.trans hbuild
    exact ⟨hsound, hdescribes⟩
  · cases h.symm.trans (build_firstFault hfault)

theorem build_eq_error {e : GenesisError} (h : c.build required = .error e) :
    FirstFault c required e := by
  rcases c.sound_or_firstFault required with hsound | ⟨e', hfault⟩
  · obtain ⟨g, hbuild, -⟩ := build_sound hsound
    cases h.symm.trans hbuild
  · cases h.symm.trans (build_firstFault hfault)
    exact hfault

/-- A required account can be used from the start. -/
theorem contains_required {g : Genesis} (h : c.build required = .ok g) {num : UInt64}
    (hnum : .ofNum num ∈ required) : g.ledger.contains (.ofNum num) = true := by
  obtain ⟨hsound, hdescribes⟩ := build_eq_ok h
  obtain ⟨a, ha, hlisted⟩ := hsound.listed _ hnum
  have hopens := opens_founded (hsound.accounts.readable a ha)
  have hid : EntityId.ofNum num = .ofNum a.num := congrArg EntityId.ofNum hlisted.symm
  exact Ledger.contains_iff.2
    ⟨_, (hdescribes.accounts _ _).2 ⟨a, ha, hid, hopens⟩, hopens.undeleted⟩

/-- Genesis is exact. A state is built if and only if the numbers of the accounts are distinct, their
balances add up to an amount, every public key and the seed can be read, and every required account is
listed. The state then has the listed accounts and no other, those without a public key can never sign,
and its supply is the sum of all balances. What is reported otherwise is the first thing wrong: account
by account, then of the required accounts, then of the seed. -/
theorem build_exact (c : GenesisConfig) (required : List AccountId) :
    ((∃ g, c.build required = .ok g) ↔ c.Sound required) ∧
    (∀ g, c.build required = .ok g → c.Describes g) ∧
    ∀ e, c.build required = .error e ↔ FirstFault c required e := by
  refine ⟨⟨?_, ?_⟩, fun g h => (build_eq_ok h).2, fun e => ⟨build_eq_error, build_firstFault⟩⟩
  · rintro ⟨g, hbuild⟩
    exact (build_eq_ok hbuild).1
  · intro hsound
    obtain ⟨g, hbuild, -⟩ := build_sound hsound
    exact ⟨g, hbuild⟩

end GenesisConfig

namespace Sample

/-- A treasury without a key, and an account whose key is spelled in both cases. -/
def twoAccounts : GenesisConfig :=
  let text := "AbababababababababababababababababababababababababababababababaB"
  ⟨[⟨98, 10, none⟩, ⟨1001, 5, some text⟩], none⟩

end Sample

open Sample in
/-- The two accounts found a ledger, but not where a third one is required. -/
theorem GenesisConfig.build_exact_twoAccounts : twoAccounts.Sound [.ofNum 98] ∧
    (∃ g, twoAccounts.build [.ofNum 98] = .ok g ∧ twoAccounts.Describes g) ∧
    twoAccounts.build [.ofNum 98, .ofNum 3] = .error (.missingAccount (.ofNum 3)) := by
  have hspelled : (Octets.replicate 32 0xab).SpelledBy
      "AbababababababababababababababababababababababababababababababaB" := by
    rw [Octets.SpelledBy, ← String.toList_inj, Text.toList_toLower, Text.hex, String.toList_ofList]
    decide +kernel
  have hreadable : ∀ a ∈ twoAccounts.accounts, a.Readable := by
    intro a ha text htext
    simp only [twoAccounts, List.mem_cons, List.not_mem_nil, or_false] at ha
    rcases ha with rfl | rfl
    · cases htext
    · cases htext
      exact ⟨_, hspelled⟩
  have hcompatible : GenesisAccount.Compatible twoAccounts.accounts :=
    ⟨by decide, by decide, hreadable⟩
  have htreasury : twoAccounts.Lists (.ofNum 98) := ⟨⟨98, 10, none⟩, by decide, rfl⟩
  have hstranger : ¬ twoAccounts.Lists (.ofNum 3) := by
    rintro ⟨a, ha, hnum⟩
    revert a
    decide
  have hsound : twoAccounts.Sound [.ofNum 98] := by
    refine ⟨hcompatible, fun id hid => ?_, fun text htext => ?_⟩
    · rwa [List.mem_singleton.1 hid]
    · cases htext
  have hfault : twoAccounts.FirstFault [.ofNum 98, .ofNum 3] (.missingAccount (.ofNum 3)) := by
    have hat : [.ofNum 98, .ofNum 3] = [.ofNum 98] ++ EntityId.ofNum 3 :: [] := rfl
    exact .required hcompatible hat (fun id hid => by rwa [List.mem_singleton.1 hid]) hstranger
  obtain ⟨hbuilds, hdescribes, -⟩ := build_exact twoAccounts [.ofNum 98]
  obtain ⟨g, hg⟩ := hbuilds.2 hsound
  exact ⟨hbuilds.1 ⟨g, hg⟩, ⟨g, hg, hdescribes g hg⟩, ((build_exact twoAccounts _).2.2 _).2 hfault⟩

end ConsensusLedger
