/-
The **error vocabulary** of the protocol: the machine bytecodes every layer answers with,
and the hard drop that carries one of them together with a message.

The bytecodes are numbered `0x00` to `0x49` without a gap, so the position of a constructor
below is its discriminant, and `code` is the status byte the wire carries for it.
-/
import Mathlib.Data.Nat.Notation

set_option autoImplicit false

namespace Saacp

inductive SAACPBytecodes
  | Success
  | MalformedHeader
  | SchemaMismatch
  | InvalidSignature
  | AmbiguousIntent
  | LateralMovementBlocked
  | PromptInjectionDetected
  | StateExpiredOrStale
  | InputRequired
  | BudgetExceeded
  | PreFlightBudget
  | CostEstimate
  | ActionClassEscalation
  | EpistemicUncertainty
  | PayloadTooLarge
  | HeartbeatPing
  | StateSyncRequired
  | TemporalTimeout
  | TokenExpired
  | ScopeViolation
  | CircuitBreakerOpen
  | DelegationRejected
  | ExternalInputTainted
  | StreamStart
  | StreamContinuation
  | StreamEnd
  | StreamAbort
  | PsnReplayDetected
  | PsnOutOfWindow
  | EpochExpired
  | SequenceOverflow
  | KeyEvolutionRequired
  | AegfLoopDetected
  | AegfHopLimitExceeded
  | AegfDepthLimitExceeded
  | AegfTtlExpired
  | AegfInvalidTransition
  | ScrUnauthorized
  | ScrNotFound
  | RrbcReplayDetected
  | RrbcUsageExhausted
  | RrbcBindingMismatch
  | RrbcPopFailed
  | RgcResourceLimitExceeded
  | KeyRevoked
  | KeyVersionMismatch
  | AcsvafDelegationAmplification
  | AcsvafDelegationDepthExceeded
  | AcsvafCircularDelegation
  | AcsvafOrphanChain
  | AcsvafMissingCapabilityAuthority
  | AcsvafKeyNotTrusted
  | AcsvafThresholdNotReached
  | AcsvafManifestInvalid
  | AcsvafSessionBindingViolated
  | SelfIssuedCapability
  | UnauthorizedIssuerClass
  | DelegationMetadataIncomplete
  | AuthorityClassViolation
  | FederationRootRequired
  | IdentityBindingMissing
  | IdentityMisbinding
  | TranscriptHashMismatch
  | IdentityNotVerified
  | SessionSpliceDetected
  | AuditSubsystemDegraded
  | TrustReauthRequired
  | IntentChainDriftExceeded
  | IntentClassEscalationDetected
  | SemanticInjectionDetected
  | InsufficientAttestation
  | CollusionDetected
  | ClusterMessageRejected
  | RulePackRejected
  deriving DecidableEq

def SAACPBytecodes.code (b : SAACPBytecodes) : UInt8 := UInt8.ofNat b.ctorIdx

structure SAACPHardDrop where
  bytecode : SAACPBytecodes
  message : String
  deriving DecidableEq

/-- `Result<_, SAACPHardDrop>`. -/
abbrev Result := Except SAACPHardDrop

theorem bind_eq_ok {ε α β : Type} {x : Except ε α} {f : α → Except ε β} {b : β} :
    (x >>= f) = .ok b ↔ ∃ a, x = .ok a ∧ f a = .ok b := by
  cases x <;> simp [bind, Except.bind]

end Saacp
