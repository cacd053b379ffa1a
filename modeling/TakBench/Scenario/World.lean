import Mathlib.Data.List.AList
import TakBench.Protocol.Event
import TakBench.Scenario.Failure

/-!
# What the participants of a run share

The world of a run is its clock, the cancellation flag, the readiness barrier, the correlation
ledger, the metrics and the lifecycle records. A participant reads the world in a step and changes
it by the effects of the step. Four effects only say what happened: an event was generated,
bytes were written, the last byte of a position event was written, and a connection was opened.

## Main definitions

* `CorrelationLedger`, `World`
* `Effect`, `World.apply`
* `Effect.Quiet`: effects that send nothing and publish nothing
* `endedInError`: did the last connect or session of a participant end in an error?
* `enterDelay`: the entry of `wait_for_delay`
-/

namespace TakBench

/-- Sent events by id, and received events by receiver and id. -/
structure CorrelationLedger where
  sent : AList (fun _ : Uuid => String × Instant)
  seen : AList (fun _ : String × Uuid => Instant)

/-- The counters of `Metrics`. -/
inductive Counter where
  | connectionAttempts
  | connectionSuccesses
  | connectionFailures
  | tlsFailures
  | sentMessages
  | receivedMessages
  | duplicateMessages
  | droppedMessages
  | messageTimeouts
  | reconnects
  | reconnectFailures
  | localDroppedMessages
  | activeConnections
  deriving DecidableEq

/-- Does a counter count events, and not connections? -/
def Counter.isEvent : Counter → Bool
  | .sentMessages | .receivedMessages | .duplicateMessages | .droppedMessages | .messageTimeouts
  | .localDroppedMessages => true
  | _ => false

/-- The histograms of `Metrics`. -/
inductive Histogram where
  | handshake
  | delivery
  | recovery
  deriving DecidableEq

inductive CompletionStatus where
  | passed
  | failed
  | aborted
  deriving DecidableEq

inductive LifecycleEvent where
  | participantConnected (participant : String)
  | participantReady (participant : String)
  | participantDisconnected (participant : String) (reason : DisconnectReason)
  | runCompleted (status : CompletionStatus)
  deriving DecidableEq

/-- The shared state of a run. The start of the scenario is the origin of time. -/
structure World where
  now : Instant
  stop : Bool
  ready : List String
  /-- how often the waiters of the barrier were notified -/
  notifications : ℕ
  ledger : CorrelationLedger
  counters : Counter → ℕ
  recorded : List (Histogram × Duration)
  lifecycle : List LifecycleEvent

/-- The world at the start of a scenario. -/
def World.initial (stop : Bool) : World where
  now := 0
  stop
  ready := []
  notifications := 0
  ledger := ⟨∅, ∅⟩
  counters := fun _ => 0
  recorded := []
  lifecycle := []

/-- What a step of a participant does. -/
inductive Effect where
  | add (counter : Counter) (n : ℕ)
  | sub (counter : Counter) (n : ℕ)
  | record (histogram : Histogram) (elapsed : Duration)
  | emit (event : LifecycleEvent)
  | markReady (participant : String)
  | notifyWaiters
  | publish (id : Uuid) (sender : String) (sentAt : Instant)
  | observe (receiver : String) (id : Uuid)
  /-- an event is made; an invalid one has no id -/
  | generate (id : Option Uuid)
  /-- the transport takes bytes -/
  | write (bytes : List UInt8)
  /-- the last byte of a position event is written -/
  | deliver (id : Uuid)
  deriving DecidableEq

/-- The change an effect makes to the world. -/
def World.apply (w : World) : Effect → World
  | .add counter n =>
    { w with counters := Function.update w.counters counter (w.counters counter + n) }
  | .sub counter n =>
    { w with counters := Function.update w.counters counter (w.counters counter - n) }
  | .record histogram elapsed => { w with recorded := w.recorded ++ [(histogram, elapsed)] }
  | .emit event => { w with lifecycle := w.lifecycle ++ [event] }
  | .markReady participant => { w with ready := w.ready.insert participant }
  | .notifyWaiters => { w with notifications := w.notifications + 1 }
  | .publish id sender sentAt =>
    { w with ledger := { w.ledger with sent := w.ledger.sent.insert id (sender, sentAt) } }
  | .observe receiver id =>
    { w with ledger := { w.ledger with seen := w.ledger.seen.insert (receiver, id) w.now } }
  | .generate _ | .write _ | .deliver _ => w

/-- The change that the effects of a step make. -/
def World.applyAll (w : World) (effects : List Effect) : World := effects.foldl World.apply w

/-- Nothing is generated, written, delivered, published, or counted as sent or dropped. -/
def Effect.Quiet : Effect → Prop
  | .add counter _ => counter ≠ .sentMessages ∧ counter ≠ .droppedMessages
  | .sub _ _ | .record _ _ | .emit _ | .markReady _ | .notifyWaiters | .observe _ _ => True
  | .publish _ _ _ | .generate _ | .write _ | .deliver _ => False

/-- Events are counted, and not connections. -/
def Effect.CountsEvents : Effect → Prop
  | .add counter _ => counter.isEvent = true
  | _ => False

/-- Events are counted, written or published, and none is made. -/
def Effect.Sends : Effect → Prop
  | .write _ | .deliver _ | .publish _ _ _ => True
  | e => e.CountsEvents

/-- Done by a session: no connection is counted, and nobody becomes ready. -/
def Effect.OfSession : Effect → Prop
  | .add counter _ => counter.isEvent = true
  | .sub _ _ | .emit _ | .markReady _ | .notifyWaiters => False
  | _ => True

/-- Done outside a session: nothing is said about events. -/
def Effect.OfConnection : Effect → Prop
  | .add counter _ => counter ≠ .sentMessages ∧ counter ≠ .droppedMessages
  | .record histogram _ => histogram ≠ .delivery
  | .sub _ _ | .emit _ | .markReady _ | .notifyWaiters => True
  | _ => False

/-- What an effect says about the last connect or session: did it end in an error? -/
def Effect.endedInError? : Effect → Option Bool
  | .add .connectionSuccesses _ => some false
  | .add .connectionFailures _ => some true
  | _ => none

@[simp] theorem World.applyAll_nil (w : World) : w.applyAll [] = w := rfl

@[simp] theorem World.applyAll_cons (w : World) (effect : Effect) (effects : List Effect) :
    w.applyAll (effect :: effects) = (w.apply effect).applyAll effects := rfl

@[simp] theorem World.apply_now (w : World) (effect : Effect) : (w.apply effect).now = w.now := by
  cases effect <;> rfl

@[simp] theorem World.applyAll_now (w : World) (effects : List Effect) :
    (w.applyAll effects).now = w.now := by
  induction effects generalizing w with
  | nil => rfl
  | cons effect effects ih => rw [applyAll_cons, ih, apply_now]

@[simp] theorem World.apply_stop (w : World) (effect : Effect) :
    (w.apply effect).stop = w.stop := by
  cases effect <;> rfl

@[simp] theorem World.applyAll_stop (w : World) (effects : List Effect) :
    (w.applyAll effects).stop = w.stop := by
  induction effects generalizing w with
  | nil => rfl
  | cons effect effects ih => rw [applyAll_cons, ih, apply_stop]

/-- Who is ready after the effects of a step. -/
theorem World.mem_applyAll_ready {w : World} {effects : List Effect} {participant : String} :
    participant ∈ (w.applyAll effects).ready ↔
      participant ∈ w.ready ∨ Effect.markReady participant ∈ effects := by
  induction effects generalizing w with
  | nil => simp
  | cons effect effects ih =>
    rw [applyAll_cons, ih]
    cases effect with
    | markReady other =>
      simp only [apply, List.mem_insert_iff, List.mem_cons, Effect.markReady.injEq]
      tauto
    | _ => simp [apply]

/-! ## Counting effects -/

namespace Effect

/-- An event made. -/
def generated : Effect → ℕ
  | .generate _ => 1
  | _ => 0

/-- An invalid event made. -/
def invalid : Effect → ℕ
  | .generate none => 1
  | _ => 0

/-- Events counted as sent. -/
def sent : Effect → ℕ
  | .add .sentMessages n => n
  | _ => 0

/-- Events counted as dropped. -/
def dropped : Effect → ℕ
  | .add .droppedMessages n => n
  | _ => 0

end Effect

/-- A count over the effects of a run. -/
def total (f : Effect → ℕ) (log : List Effect) : ℕ := (log.map f).sum

@[simp] theorem total_nil (f : Effect → ℕ) : total f [] = 0 := rfl

@[simp] theorem total_cons (f : Effect → ℕ) (e : Effect) (log : List Effect) :
    total f (e :: log) = f e + total f log := by
  simp [total]

@[simp] theorem total_append (f : Effect → ℕ) (log log' : List Effect) :
    total f (log ++ log') = total f log + total f log' := by
  simp [total]

theorem total_eq_zero {f : Effect → ℕ} {log : List Effect} (h : ∀ e ∈ log, f e = 0) :
    total f log = 0 := by
  rw [total, List.sum_eq_zero_iff_forall_eq_nat]
  intro n hn
  obtain ⟨e, he, rfl⟩ := List.mem_map.mp hn
  exact h e he

/-- A quiet effect counts nothing. -/
theorem Effect.Quiet.counts {e : Effect} (h : e.Quiet) :
    e.generated = 0 ∧ e.invalid = 0 ∧ e.sent = 0 ∧ e.dropped = 0 := by
  cases e with
  | add counter n =>
    cases counter with
    | sentMessages => exact absurd rfl h.1
    | droppedMessages => exact absurd rfl h.2
    | _ => exact ⟨rfl, rfl, rfl, rfl⟩
  | generate id => exact h.elim
  | _ => exact ⟨rfl, rfl, rfl, rfl⟩

theorem total_eq_zero_of_quiet {log : List Effect} (h : ∀ e ∈ log, e.Quiet) :
    total Effect.generated log = 0 ∧ total Effect.invalid log = 0 ∧
      total Effect.sent log = 0 ∧ total Effect.dropped log = 0 :=
  ⟨total_eq_zero fun e he => (h e he).counts.1, total_eq_zero fun e he => (h e he).counts.2.1,
    total_eq_zero fun e he => (h e he).counts.2.2.1,
    total_eq_zero fun e he => (h e he).counts.2.2.2⟩

theorem Effect.CountsEvents.sends {e : Effect} (h : e.CountsEvents) : e.Sends := by
  cases e with
  | add counter n => exact h
  | _ => exact h.elim

theorem Effect.Sends.generated {e : Effect} (h : e.Sends) : e.generated = 0 := by
  cases e with
  | generate id => exact h.elim
  | _ => rfl

theorem total_generated_of_sends {log : List Effect} (h : ∀ e ∈ log, e.Sends) :
    total Effect.generated log = 0 :=
  total_eq_zero fun e he => (h e he).generated

theorem Effect.Sends.ofSession {e : Effect} (h : e.Sends) : e.OfSession := by
  cases e with
  | add counter n => exact h
  | write bytes => trivial
  | deliver id => trivial
  | publish id sender sentAt => trivial
  | _ => exact h.elim

theorem Effect.OfConnection.quiet {e : Effect} (h : e.OfConnection) : e.Quiet := by
  cases e with
  | add counter n => exact h
  | sub counter n => trivial
  | record histogram elapsed => trivial
  | emit event => trivial
  | markReady participant => trivial
  | notifyWaiters => trivial
  | _ => exact h.elim

theorem Effect.OfSession.endedInError? {e : Effect} (h : e.OfSession) :
    e.endedInError? = none := by
  cases e with
  | add counter n =>
    cases counter with
    | connectionSuccesses => cases h
    | connectionFailures => cases h
    | _ => rfl
  | _ => rfl

/-! ## The last connect or session -/

/-- Did the last connect or session of a run end in an error? -/
def endedInError (log : List Effect) : Bool :=
  log.foldl (fun last e => e.endedInError?.getD last) false

/-- Nothing in between leaves the last connect or session the last one. -/
theorem endedInError_append {log out : List Effect} (h : ∀ e ∈ out, e.endedInError? = none) :
    endedInError (log ++ out) = endedInError log := by
  induction out generalizing log with
  | nil => rw [List.append_nil]
  | cons e out ih =>
    rw [List.append_cons, ih fun e' he' => h e' (List.mem_cons_of_mem e he'), endedInError,
      List.foldl_append, List.foldl_cons, h e List.mem_cons_self]
    rfl

/-- The last connect or session decides. -/
theorem endedInError_append_cons {log out : List Effect} {e : Effect} {failed : Bool}
    (h : e.endedInError? = some failed) (hout : ∀ e ∈ out, e.endedInError? = none) :
    endedInError (log ++ e :: out) = failed := by
  rw [List.append_cons, endedInError_append hout, endedInError, List.foldl_append,
    List.foldl_cons, h]
  rfl

/-- `wait_for_delay` up to its `select!`: the end of the delay, or `none` if the wait is over. -/
def enterDelay (w : World) (deadline : Instant) (delay : Duration) : Option Instant :=
  if w.stop || decide (deadline ≤ w.now) then none else some (w.now + delay)

end TakBench
