import ConsensusLedger.Digest.Blake3
import ConsensusLedger.Transaction.Wire

/-!
Scheduled transactions that wait for their signers.
-/

namespace ConsensusLedger

/-- A scheduled transaction and the keys that have signed it so far. -/
structure Schedule where
  body : List UInt8
  /-- The account that pays for the inner transaction. -/
  payer : AccountId
  /-- The account that paid for the scheduling. -/
  schedulingAccount : AccountId
  validStart : Timestamp
  expiry : Int64
  adminKey : Option Key
  memo : String
  /-- Keys with a verified signature over the body, in the order of witnessing. -/
  signatories : List PublicKey
  deriving DecidableEq, Repr

namespace Schedule

def scheduledId (s : Schedule) : TransactionId := ⟨s.schedulingAccount, s.validStart, true⟩

def hasSigned (s : Schedule) (key : PublicKey) : Bool := key ∈ s.signatories

/-- Records a signatory, and says whether it is new. -/
def witness (s : Schedule) (key : PublicKey) : Bool × Schedule :=
  if s.hasSigned key then (false, s)
  else (true, { s with signatories := s.signatories ++ [key] })

/-- Records signatories one after the other, and says which of them were new. -/
def witnessAll (s : Schedule) : List PublicKey → List Bool × Schedule
  | [] => ([], s)
  | key :: rest =>
    let (new, s) := s.witness key
    let (news, s) := s.witnessAll rest
    (new :: news, s)

open Wire in
def codec : Codec Schedule :=
  (Codec.octets.pair (EntityId.codec.pair (EntityId.codec.pair (Timestamp.codec.pair
    (Codec.i64.pair ((Codec.option Key.codec).pair
      (Codec.text.pair (Codec.list PublicKey.codec)))))))).imap
    (fun (body, payer, account, start, expiry, admin, memo, keys) =>
      ⟨body, payer, account, start, expiry, admin, memo, keys⟩)
    (fun s => (s.body, s.payer, s.schedulingAccount, s.validStart, s.expiry, s.adminKey, s.memo,
      s.signatories))

end Schedule

/-- What makes two schedules the same request: the digest of the inner body, the payer, the admin
key and the memo. -/
structure Fingerprint where
  bodyHash : Octets 32
  payer : AccountId
  adminKey : Option Key
  memo : String
  deriving DecidableEq, Repr

def Fingerprint.of (body : List UInt8) (payer : AccountId) (adminKey : Option Key)
    (memo : String) : Fingerprint :=
  ⟨Digest.blake3 body, payer, adminKey, memo⟩

def Schedule.fingerprint (s : Schedule) : Fingerprint := .of s.body s.payer s.adminKey s.memo

/-- What a schedule is created from. -/
structure NewSchedule where
  body : List UInt8
  payer : AccountId
  schedulingAccount : AccountId
  validStart : Timestamp
  adminKey : Option Key
  memo : String
  deriving DecidableEq, Repr

end ConsensusLedger
