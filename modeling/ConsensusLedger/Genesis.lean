import ConsensusLedger.Ledger.Basic
import ConsensusLedger.Text.Hex

/-!
The state that a network starts from: accounts with their balances and keys, and the seed of the
running hash.
-/

namespace ConsensusLedger

/-- Why a text is not the hexadecimal form of a byte string of a given length. -/
inductive OctetsFault where
  | hex (fault : Text.HexFault)
  | length (expected actual : Nat)
  deriving DecidableEq, Repr

def OctetsFault.message : OctetsFault → String
  | hex fault => fault.message
  | length expected actual => s!"expected {expected} bytes, got {actual}"

/-- The byte string of length `n` that a hexadecimal text stands for. -/
def Octets.ofHex (n : Nat) (text : String) : Except OctetsFault (Octets n) :=
  match Text.unhex text with
  | .error fault => .error (.hex fault)
  | .ok bytes =>
    match Octets.ofList? n bytes with
    | some o => .ok o
    | none => .error (.length n bytes.length)

structure GenesisAccount where
  num : UInt64
  balance : UInt64
  /-- An Ed25519 public key in hexadecimal. -/
  publicKey : Option String := none
  deriving DecidableEq, Repr

structure GenesisConfig where
  accounts : List GenesisAccount := [⟨2, 5000000000000000000, none⟩, ⟨3, 0, none⟩, ⟨98, 0, none⟩]
  /-- The seed of the running hash in hexadecimal; all zeros when there is none. -/
  seed : Option String := none
  deriving DecidableEq, Repr

inductive GenesisError where
  | duplicateAccount (num : UInt64)
  | missingAccount (id : AccountId)
  | invalidKey (num : UInt64) (fault : OctetsFault)
  | invalidSeed (fault : OctetsFault)
  | supplyOverflow
  deriving DecidableEq, Repr

def GenesisError.message : GenesisError → String
  | duplicateAccount num => s!"Account {num} appears more than once"
  | missingAccount id => s!"Required account {id} is missing from genesis"
  | invalidKey num fault => s!"Invalid public key for account {num}: {fault.message}"
  | invalidSeed fault => s!"Invalid running hash seed: {fault.message}"
  | supplyOverflow => "Total supply overflows"

structure Genesis where
  ledger : Ledger
  seed : Octets 48
  supply : UInt64

/-- The key of an account. One without a public key can never sign: its key list is empty. -/
def GenesisAccount.key (a : GenesisAccount) : Except GenesisError Key :=
  match a.publicKey with
  | none => .ok (.list [])
  | some text => ((Octets.ofHex 32 text).map Key.ed25519).mapError (.invalidKey a.num)

namespace GenesisConfig

/-- What an account becomes, with the supply that includes it, given the numbers and the supply of
the accounts before it. -/
def enroll (seen : List UInt64) (supply : UInt64) (a : GenesisAccount) :
    Except GenesisError (Account × UInt64) :=
  if a.num ∈ seen then .error (.duplicateAccount a.num)
  else
    match balanceOf? (supply.toNat + a.balance.toNat) with
    | none => .error .supplyOverflow
    | some supply =>
      match a.key with
      | .error e => .error e
      | .ok key => .ok (⟨a.balance, key, false⟩, supply)

/-- Installs accounts, given the numbers and the supply of those before them. -/
def install (seen : List UInt64) (supply : UInt64) :
    List GenesisAccount → Except GenesisError (List (AccountId × Account) × UInt64)
  | [] => .ok ([], supply)
  | a :: rest =>
    match enroll seen supply a with
    | .error e => .error e
    | .ok (account, supply) =>
      match install (a.num :: seen) supply rest with
      | .error e => .error e
      | .ok (accounts, supply) => .ok ((.ofNum a.num, account) :: accounts, supply)

def seedOctets (c : GenesisConfig) : Except GenesisError (Octets 48) :=
  match c.seed with
  | none => .ok (Octets.replicate 48 0)
  | some text => (Octets.ofHex 48 text).mapError .invalidSeed

/-- Builds the starting state. Every required account has to be among the accounts, by its
number. -/
def build (c : GenesisConfig) (required : List AccountId) : Except GenesisError Genesis :=
  match install [] 0 c.accounts with
  | .error e => .error e
  | .ok (accounts, supply) =>
    match required.find? fun id => !c.accounts.any (·.num = id.num) with
    | some id => .error (.missingAccount id)
    | none =>
      match c.seedOctets with
      | .error e => .error e
      | .ok seed => .ok ⟨.ofAccounts accounts, seed, supply⟩

end GenesisConfig

end ConsensusLedger
