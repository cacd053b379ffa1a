import Mathlib.Tactic.Common

/-!
# Failures of a participant

An error is the chain of its causes, outermost first. A participant's error is reported under the
category and the phase that the first recognised cause gives it.

## Main definitions

* `Failure`: a chain of causes
* `classifyParticipantError`, `disconnectReason`
-/

namespace TakBench

/-- Why a connection was not made. -/
inductive ConnectError where
  | tcp
  | tlsHandshake
  | caLoad
  | clientCertificateLoad
  | clientKeyLoad
  | tlsConfiguration
  deriving DecidableEq

inductive ParticipantRuntimeError where
  | peerClosed
  | read
  | write
  | parse
  | reconnectExhausted
  deriving DecidableEq

/-- A cause in the chain of an error. -/
inductive Cause where
  | connect (error : ConnectError)
  | runtime (error : ParticipantRuntimeError)
  | tlsTemplate
  | elapsed
  | io (isInvalidData : Bool)
  | message (text : String)
  deriving DecidableEq

/-- The causes of an error, outermost first. -/
abbrev Failure := List Cause

inductive ErrorPhase where
  | connect
  | tlsHandshake
  | readiness
  | read
  | write
  | parse
  deriving DecidableEq

inductive ErrorCategory where
  | tcpConnectFailed
  | tlsHandshakeFailed
  | caLoadFailed
  | clientCertificateLoadFailed
  | clientKeyLoadFailed
  | tlsConfigurationFailed
  | readinessTimeout
  | peerClosed
  | readFailed
  | writeFailed
  | cotParseFailed
  | reconnectExhausted
  | participantTaskFailed
  deriving DecidableEq

structure ParticipantFailure where
  category : ErrorCategory
  phase : ErrorPhase
  participant : String
  deriving DecidableEq

namespace ConnectError

def isTls : ConnectError → Bool
  | .tcp => false
  | _ => true

def category : ConnectError → ErrorCategory
  | .tcp => .tcpConnectFailed
  | .tlsHandshake => .tlsHandshakeFailed
  | .caLoad => .caLoadFailed
  | .clientCertificateLoad => .clientCertificateLoadFailed
  | .clientKeyLoad => .clientKeyLoadFailed
  | .tlsConfiguration => .tlsConfigurationFailed

def phase (error : ConnectError) : ErrorPhase := if error.isTls then .tlsHandshake else .connect

end ConnectError

/-- `is_tls_failure`. -/
def isTlsFailure (failure : Failure) : Bool :=
  failure.any fun
    | .connect error => error.isTls
    | .io isInvalidData => isInvalidData
    | _ => false

/-- The category and phase of a runtime error. -/
def ParticipantRuntimeError.classify : ParticipantRuntimeError → ErrorCategory × ErrorPhase
  | .peerClosed => (.peerClosed, .read)
  | .read => (.readFailed, .read)
  | .write => (.writeFailed, .write)
  | .parse => (.cotParseFailed, .parse)
  | .reconnectExhausted => (.reconnectExhausted, .connect)

/-- The first connection error of a chain. -/
def connectError? (failure : Failure) : Option ConnectError :=
  failure.findSome? fun
    | .connect error => some error
    | _ => none

/-- The first runtime error of a chain. -/
def runtimeError? (failure : Failure) : Option ParticipantRuntimeError :=
  failure.findSome? fun
    | .runtime error => some error
    | _ => none

/-- `classify_participant_error`. -/
def classifyParticipantError (participant : String) (failure : Failure) : ParticipantFailure :=
  match connectError? failure with
  | some error => ⟨error.category, error.phase, participant⟩
  | none =>
    if .tlsTemplate ∈ failure then ⟨.tlsConfigurationFailed, .tlsHandshake, participant⟩
    else
      match runtimeError? failure with
      | some error => ⟨error.classify.1, error.classify.2, participant⟩
      | none => ⟨.participantTaskFailed, .connect, participant⟩

/-- An error of a participant is never reported as a readiness timeout. -/
theorem classifyParticipantError_category (participant : String) (failure : Failure) :
    (classifyParticipantError participant failure).category ≠ .readinessTimeout := by
  rw [classifyParticipantError]
  split
  · next error _ => cases error <;> simp [ConnectError.category]
  · split
    · simp
    · split
      · next error _ => cases error <;> simp [ParticipantRuntimeError.classify]
      · simp

inductive DisconnectReason where
  | runDeadline
  | externalStop
  | peerClosed
  | readFailed
  | writeFailed
  | parseFailed
  | connectFailed
  | readinessTimeout
  | reconnectExhausted
  deriving DecidableEq

/-- `disconnect_reason`. -/
def disconnectReason (result : Except Failure Unit) (stop pastDeadline : Bool) :
    DisconnectReason :=
  match result with
  | .error failure =>
    match (classifyParticipantError "" failure).category with
    | .peerClosed => .peerClosed
    | .readFailed => .readFailed
    | .writeFailed => .writeFailed
    | .cotParseFailed => .parseFailed
    | .readinessTimeout => .readinessTimeout
    | .reconnectExhausted => .reconnectExhausted
    | _ => .connectFailed
  | .ok () => if stop then .externalStop else if pastDeadline then .runDeadline else .externalStop

end TakBench
