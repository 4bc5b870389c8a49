/-!
The outcome of handling a transaction.
-/

namespace ConsensusLedger

/-- Outcome codes. Every failure of a transaction is reported as one of these on its receipt. -/
inductive Status where
  | ok
  | failInvalid
  | invalidNodeAccount
  | invalidPayerSignature
  | duplicateTransaction
  | invalidTransactionDuration
  | invalidTransactionStart
  | transactionExpired
  | insufficientPayerBalance
  | insufficientTxFee
  | insufficientAccountBalance
  | invalidFileId
  | invalidTokenId
  | invalidAccountId
  | invalidScheduleId
  | invalidSignature
  | keyPrefixMismatch
  | invalidSignatureCountMismatchingKey
  | modifyingImmutableContract
  | invalidContractId
  | unresolvableRequiredSigners
  | unparseableScheduledTransaction
  | unschedulableTransaction
  | someSignaturesWereInvalid
  | noNewValidSignatures
  | scheduleIsImmutable
  | invalidScheduleAccountId
  | invalidSchedulePayerId
  | invalidAdminKey
  | memoTooLong
  | invalidAccountAmounts
  | accountRepeatedInAccountAmounts
  | emptyTransferList
  | invalidFreezeTransactionBody
  | notSupported
  deriving DecidableEq, Repr

namespace Status

def all : List Status :=
  [.ok, .failInvalid, .invalidNodeAccount, .invalidPayerSignature, .duplicateTransaction,
   .invalidTransactionDuration, .invalidTransactionStart, .transactionExpired,
   .insufficientPayerBalance, .insufficientTxFee, .insufficientAccountBalance, .invalidFileId,
   .invalidTokenId, .invalidAccountId, .invalidScheduleId, .invalidSignature, .keyPrefixMismatch,
   .invalidSignatureCountMismatchingKey, .modifyingImmutableContract, .invalidContractId,
   .unresolvableRequiredSigners, .unparseableScheduledTransaction, .unschedulableTransaction,
   .someSignaturesWereInvalid, .noNewValidSignatures, .scheduleIsImmutable,
   .invalidScheduleAccountId, .invalidSchedulePayerId, .invalidAdminKey, .memoTooLong,
   .invalidAccountAmounts, .accountRepeatedInAccountAmounts, .emptyTransferList,
   .invalidFreezeTransactionBody, .notSupported]

/-- The upper-case name that receipts are read by. -/
def name : Status → String
  | .ok => "OK"
  | .failInvalid => "FAIL_INVALID"
  | .invalidNodeAccount => "INVALID_NODE_ACCOUNT"
  | .invalidPayerSignature => "INVALID_PAYER_SIGNATURE"
  | .duplicateTransaction => "DUPLICATE_TRANSACTION"
  | .invalidTransactionDuration => "INVALID_TRANSACTION_DURATION"
  | .invalidTransactionStart => "INVALID_TRANSACTION_START"
  | .transactionExpired => "TRANSACTION_EXPIRED"
  | .insufficientPayerBalance => "INSUFFICIENT_PAYER_BALANCE"
  | .insufficientTxFee => "INSUFFICIENT_TX_FEE"
  | .insufficientAccountBalance => "INSUFFICIENT_ACCOUNT_BALANCE"
  | .invalidFileId => "INVALID_FILE_ID"
  | .invalidTokenId => "INVALID_TOKEN_ID"
  | .invalidAccountId => "INVALID_ACCOUNT_ID"
  | .invalidScheduleId => "INVALID_SCHEDULE_ID"
  | .invalidSignature => "INVALID_SIGNATURE"
  | .keyPrefixMismatch => "KEY_PREFIX_MISMATCH"
  | .invalidSignatureCountMismatchingKey => "INVALID_SIGNATURE_COUNT_MISMATCHING_KEY"
  | .modifyingImmutableContract => "MODIFYING_IMMUTABLE_CONTRACT"
  | .invalidContractId => "INVALID_CONTRACT_ID"
  | .unresolvableRequiredSigners => "UNRESOLVABLE_REQUIRED_SIGNERS"
  | .unparseableScheduledTransaction => "UNPARSEABLE_SCHEDULED_TRANSACTION"
  | .unschedulableTransaction => "UNSCHEDULABLE_TRANSACTION"
  | .someSignaturesWereInvalid => "SOME_SIGNATURES_WERE_INVALID"
  | .noNewValidSignatures => "NO_NEW_VALID_SIGNATURES"
  | .scheduleIsImmutable => "SCHEDULE_IS_IMMUTABLE"
  | .invalidScheduleAccountId => "INVALID_SCHEDULE_ACCOUNT_ID"
  | .invalidSchedulePayerId => "INVALID_SCHEDULE_PAYER_ID"
  | .invalidAdminKey => "INVALID_ADMIN_KEY"
  | .memoTooLong => "MEMO_TOO_LONG"
  | .invalidAccountAmounts => "INVALID_ACCOUNT_AMOUNTS"
  | .accountRepeatedInAccountAmounts => "ACCOUNT_REPEATED_IN_ACCOUNT_AMOUNTS"
  | .emptyTransferList => "EMPTY_TRANSFER_LIST"
  | .invalidFreezeTransactionBody => "INVALID_FREEZE_TRANSACTION_BODY"
  | .notSupported => "NOT_SUPPORTED"

/-- The same words with capital initials, as record files spell the code. -/
def label (s : Status) : String :=
  String.join ((s.name.splitOn "_").map fun w =>
    String.ofList (w.toList.take 1 ++ (w.toList.drop 1).map Char.toLower))

def ofName? (name : String) : Option Status := all.find? fun s => s.name = name

def isOk (s : Status) : Bool := s = .ok

/-- Codes found while the required signatures are resolved that end the handling of a transaction
right after it is charged. -/
def endsHandling : Status → Bool
  | .invalidFileId | .invalidTokenId | .invalidAccountId | .invalidScheduleId | .invalidSignature
  | .keyPrefixMismatch | .invalidSignatureCountMismatchingKey | .modifyingImmutableContract
  | .invalidContractId | .unresolvableRequiredSigners | .unparseableScheduledTransaction
  | .unschedulableTransaction => true
  | _ => false

end Status

end ConsensusLedger
