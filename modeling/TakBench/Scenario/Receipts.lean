import TakBench.Scenario.Disconnects
import TakBench.Scenario.Intake
import TakBench.Scenario.Received
import TakBench.Scenario.Samples

/-!
# The books of what is received

A reader counts an event as received, and then takes the lock of the ledger to record its id: as
seen for the first time, or as a duplicate. So the events received are the duplicates, the pairs of
a receiver and an id that are seen, and the ids that readers hold, except for two losses: an event
without an id is only counted, and a reader that is aborted while it waits for the lock takes its id
with it.

## Main definitions

* `Session.held?`, `Participant.held?`, `Run.held`: the ids that readers hold
* `World.receipts`: the duplicates and the pairs that are seen
* `Run.KeepsReceipts`: a step that loses no receipt

## Main results

* `Participant.receipt_cases`: a step inspects, records, drops an id, or receives nothing
* `Run.receipts_iff`: the books of what is received balance exactly when no step loses a receipt
-/

namespace TakBench

variable {P : Platform} {config : AppConfig} {participant : ParticipantConfig} {w : World}
  {out : List Effect}

/-! ## Worlds -/

namespace World

/-- What is recorded in the ledger: the pairs that are seen, and the duplicates. -/
def receipts (w : World) : ℕ := w.counters .duplicateMessages + w.ledger.seen.keys.length

/-- What receives nothing keeps the receipts. -/
theorem applyAll_of_mute (h : ∀ e ∈ out, e.Mute) :
    (w.applyAll out).counters .receivedMessages = w.counters .receivedMessages ∧
      (w.applyAll out).receipts = w.receipts := by
  induction out generalizing w with
  | nil => exact ⟨rfl, rfl⟩
  | cons e out ih =>
    obtain ⟨he, hout⟩ := List.forall_mem_cons.mp h
    obtain ⟨hreceived, hreceipts⟩ := ih (w := w.apply e) hout
    rw [applyAll_cons, hreceived, hreceipts]
    cases e with
    | add counter n =>
      exact ⟨Function.update_of_ne he.1.symm _ _, by
        simp [receipts, apply, Function.update_of_ne he.2.symm]⟩
    | sub counter n =>
      exact ⟨Function.update_of_ne he.1.symm _ _, by
        simp [receipts, apply, Function.update_of_ne he.2.symm]⟩
    | observe receiver id => exact he.elim
    | _ => exact ⟨rfl, rfl⟩

end World

/-- **An id that is recorded** is one more receipt. -/
theorem Reader.record_receipts (id : Uuid) :
    (w.applyAll (record participant w id)).counters .receivedMessages =
        w.counters .receivedMessages ∧
      (w.applyAll (record participant w id)).receipts = w.receipts + 1 := by
  have hlength := countP_keys_insert (p := fun _ => true) w.ledger.seen (participant.id, id) w.now
  simp only [List.countP_true, and_true] at hlength
  rw [record]
  cases hseen : (w.ledger.seen.lookup (participant.id, id)).isSome with
  | true =>
    -- a copy: the pair is in the ledger already
    have hmem : (participant.id, id) ∈ w.ledger.seen.keys := AList.lookup_isSome.mp hseen
    rw [if_neg (not_not_intro hmem)] at hlength
    simp only [if_true, World.applyAll_cons, World.applyAll_nil, World.receipts, World.apply,
      Function.update_self, hlength]
    exact ⟨rfl, by omega⟩
  | false =>
    have hnew : (participant.id, id) ∉ w.ledger.seen.keys := fun hmem => by
      rw [AList.lookup_isSome.mpr hmem] at hseen
      cases hseen
    rw [if_pos hnew] at hlength
    have hobserved : (w.apply (.observe participant.id id)).receipts = w.receipts + 1 := by
      simp only [World.receipts, World.apply, hlength]
      omega
    simp only [Bool.false_eq_true, if_false]
    split
    · exact ⟨rfl, hobserved⟩
    · exact ⟨rfl, hobserved⟩

/-! ## Readers and sessions -/

namespace Reader

variable {reader reader' : Reader} {act : ReaderAct}

/-- The frame that a reader is about to inspect. -/
def front? (reader : Reader) : Option String :=
  match reader.phase with
  | .recording (raw :: _) => some raw
  | _ => none

theorem holds?_push (bytes : List UInt8) : (reader.push P bytes).holds? = none := by
  rw [push]
  split <;> rfl

theorem holds?_start : (start participant config w).holds? = none := by
  rw [start]
  split
  · rfl
  · split <;> rfl

/-- A step that neither records nor inspects. -/
theorem receipt_idle (hrecorded : act ≠ .recorded) (hinspected : act ≠ .inspected)
    (h : reader.step P participant config w act = some (reader', out)) :
    reader.holds? = none ∧ reader'.holds? = none ∧ ∀ e ∈ out, e.Mute := by
  obtain ⟨decoder, phase⟩ := reader
  have hmute : ∀ e ∈ [Effect.add .messageTimeouts 1], e.Mute := by simp [Effect.Mute]
  cases phase with
  | spawned =>
    cases act with
    | started =>
      obtain ⟨rfl, rfl⟩ := Prod.mk.inj (Option.some.inj h)
      exact ⟨rfl, holds?_start, mute_nil⟩
    | _ => simp [step, cut] at h
  | pausing endsAt =>
    cases act with
    | stopped | deadline | delayOver =>
      simp only [step, cut, Option.ite_none_right_eq_some, Option.some.injEq, Prod.mk.injEq] at h
      obtain ⟨-, rfl, rfl⟩ := h
      exact ⟨rfl, rfl, mute_nil⟩
    | _ => simp [step] at h
  | reading since =>
    cases act with
    | stopped | deadline =>
      simp only [step, cut, Option.ite_none_right_eq_some, Option.some.injEq, Prod.mk.injEq] at h
      obtain ⟨-, rfl, rfl⟩ := h
      exact ⟨rfl, rfl, mute_nil⟩
    | peerClosed | readFailed =>
      obtain ⟨rfl, rfl⟩ := Prod.mk.inj (Option.some.inj h)
      exact ⟨rfl, rfl, mute_nil⟩
    | received bytes =>
      simp only [step, Option.ite_none_right_eq_some] at h
      obtain ⟨-, h⟩ := h
      split at h
      · obtain ⟨rfl, rfl⟩ := Prod.mk.inj (Option.some.inj h)
        exact ⟨rfl, holds?_push bytes, mute_nil⟩
      · split at h <;> obtain ⟨rfl, rfl⟩ := Prod.mk.inj (Option.some.inj h) <;>
          exact ⟨rfl, rfl, mute_nil⟩
    | timedOut =>
      simp only [step, Option.ite_none_right_eq_some] at h
      obtain ⟨-, h⟩ := h
      split at h <;> obtain ⟨rfl, rfl⟩ := Prod.mk.inj (Option.some.inj h) <;>
        exact ⟨rfl, rfl, hmute⟩
    | _ => simp [step] at h
  | delaying endsAt bytes =>
    cases act with
    | stopped | deadline =>
      simp only [step, cut, Option.ite_none_right_eq_some, Option.some.injEq, Prod.mk.injEq] at h
      obtain ⟨-, rfl, rfl⟩ := h
      exact ⟨rfl, rfl, mute_nil⟩
    | delayOver =>
      simp only [step, Option.ite_none_right_eq_some, Option.some.injEq, Prod.mk.injEq] at h
      obtain ⟨-, rfl, rfl⟩ := h
      exact ⟨rfl, holds?_push bytes, mute_nil⟩
    | _ => simp [step] at h
  | recording raws =>
    cases act with
    | inspected => exact absurd rfl hinspected
    | _ => simp [step, cut] at h
  | locking id raws =>
    cases act with
    | recorded => exact absurd rfl hrecorded
    | _ => simp [step, cut] at h
  | returned result => cases act <;> simp [step, cut] at h

/-- **A step of a reader** records the id it holds, counts an event, or receives nothing. -/
theorem receipt_cases (h : reader.step P participant config w act = some (reader', out)) :
    (∃ id, act = .recorded ∧ reader.holds? = some id ∧ reader'.holds? = none ∧
      out = record participant w id) ∨
    (∃ raw event, act = .inspected ∧ reader.front? = some raw ∧ inspectEvent P raw = .ok event ∧
      reader.holds? = none ∧ reader'.holds? = event.correlationId ∧
      out = [.add .receivedMessages 1]) ∨
    (reader.holds? = none ∧ reader'.holds? = none ∧ (∀ e ∈ out, e.Mute) ∧
      (act = .inspected → ∀ raw event, reader.front? = some raw →
        inspectEvent P raw ≠ .ok event)) := by
  by_cases hrecorded : act = .recorded
  · subst hrecorded
    obtain ⟨decoder, phase⟩ := reader
    cases phase with
    | locking id raws =>
      obtain ⟨rfl, rfl⟩ := Prod.mk.inj (Option.some.inj h)
      exact .inl ⟨id, rfl, rfl, rfl, rfl⟩
    | _ => simp [step] at h
  by_cases hinspected : act = .inspected
  · subst hinspected
    obtain ⟨decoder, phase⟩ := reader
    cases phase with
    | recording raws =>
      cases raws with
      | nil =>
        obtain ⟨rfl, rfl⟩ := Prod.mk.inj (Option.some.inj h)
        exact .inr (.inr ⟨rfl, rfl, mute_nil, fun _ raw event hfront => by cases hfront⟩)
      | cons raw raws =>
        simp only [step] at h
        cases hevent : inspectEvent P raw with
        | error e =>
          rw [hevent] at h
          obtain ⟨rfl, rfl⟩ := Prod.mk.inj (Option.some.inj h)
          refine .inr (.inr ⟨rfl, rfl, mute_nil, fun _ raw' event hfront hok => ?_⟩)
          obtain rfl : raw = raw' := Option.some.inj hfront
          rw [hevent] at hok
          cases hok
        | ok event =>
          rw [hevent] at h
          refine .inr (.inl ⟨raw, event, rfl, rfl, hevent, rfl, ?_⟩)
          cases hid : event.correlationId <;> simp only [hid, Option.some.injEq,
            Prod.mk.injEq] at h <;> obtain ⟨rfl, rfl⟩ := h <;> exact ⟨rfl, rfl⟩
    | _ => simp [step] at h
  · obtain ⟨hholds, hholds', hmute⟩ := receipt_idle hrecorded hinspected h
    exact .inr (.inr ⟨hholds, hholds', hmute, fun hact => absurd hact hinspected⟩)

end Reader

namespace Session

variable {session session' : Session} {act : SessionAct}

/-- The id that the reader holds. -/
def held? (session : Session) : Option Uuid := session.reader?.bind Reader.holds?

/-- The frame that the reader is about to inspect. -/
def front? (session : Session) : Option String := session.reader?.bind Reader.front?

theorem reader?_afterBarrier (reader : Option Reader) (barrier : BarrierPhase) :
    (afterBarrier config w reader barrier).reader? = reader := by
  cases barrier with
  | returned result =>
    cases result with
    | ready =>
      rcases openSender_cases config w reader with ⟨interval, -, -, hopen⟩ | hopen
      · rw [afterBarrier, hopen]
        rfl
      · rw [afterBarrier, hopen]
        rfl
    | timedOut => exact reader?_close
    | stopped => exact reader?_close
  | _ => rfl

theorem held?_afterReader (reader : Reader) : (afterReader reader).held? = reader.holds? := by
  rw [afterReader]
  split
  · next result hphase => simp only [held?, reader?, Option.bind_none, Reader.holds?, hphase]
  · rfl

theorem held?_putReader {reader : Reader} (halive : session.reader? = some reader)
    (reader' : Reader) : (session.putReader reader').held? = reader'.holds? := by
  cases session with
  | receiving _ => exact held?_afterReader reader'
  | slowConnecting _ => cases halive
  | returned _ => cases halive
  | _ => rfl

theorem held?_enter : (enter participant config w).held? = none := by
  rw [enter]
  split
  · rw [held?_afterReader, Reader.holds?_start]
  · rfl
  · rfl

theorem held?_start : (start participant config w).held? = none := by
  rw [start]
  split
  · split <;> rfl
  · exact held?_enter

/-- **A step of a session** records an id, counts an event, drops its reader, or receives
nothing. -/
theorem receipt_cases (h : session.step P participant config w act = some (session', out)) :
    (∃ id, act = .reader .recorded ∧ session.held? = some id ∧ session'.held? = none ∧
      out = Reader.record participant w id) ∨
    (∃ raw event, act = .reader .inspected ∧ session.front? = some raw ∧
      inspectEvent P raw = .ok event ∧ session.held? = none ∧
      session'.held? = event.correlationId ∧ out = [.add .receivedMessages 1]) ∨
    (act = .readerJoined ∧ session'.held? = none ∧ out = []) ∨
    (act ≠ .readerJoined ∧ session'.held? = session.held? ∧ (∀ e ∈ out, e.Mute) ∧
      (act = .reader .inspected → ∀ raw event, session.front? = some raw →
        inspectEvent P raw ≠ .ok event)) := by
  cases steps_of_step h with
  | enter endsAt hdue =>
    exact .inr (.inr (.inr ⟨by simp, held?_enter, mute_nil, by simp⟩))
  | delayCut endsAt hover => exact .inr (.inr (.inr ⟨by simp, rfl, mute_nil, by simp⟩))
  | barrier barrier barrier' reader a hbarrier =>
    refine .inr (.inr (.inr ⟨by simp, ?_, mute_nil, by simp⟩))
    rw [held?, reader?_afterBarrier]
    rfl
  | sender sender sender' reader a out hsender =>
    refine .inr (.inr (.inr ⟨by simp, ?_, (Sender.mute_step hsender).effects, by simp⟩))
    rw [held?, reader?_afterSender]
    rfl
  | reader session reader reader' a out halive hreader =>
    have hheld : session.held? = reader.holds? := by rw [held?, halive, Option.bind_some]
    have hfront : session.front? = reader.front? := by rw [front?, halive, Option.bind_some]
    rw [hheld, hfront, held?_putReader halive]
    rcases Reader.receipt_cases hreader with ⟨id, rfl, hholds⟩ | ⟨raw, event, rfl, hinspect⟩ |
      ⟨hnone, hnone', hmute, hinspect⟩
    · exact .inl ⟨id, rfl, hholds⟩
    · exact .inr (.inl ⟨raw, event, rfl, hinspect⟩)
    · refine .inr (.inr (.inr ⟨by simp, hnone'.trans hnone.symm, hmute, fun hact => hinspect ?_⟩))
      exact SessionAct.reader.inj hact
  | readerDone sender reader result hphase =>
    refine .inr (.inr (.inr ⟨by simp, ?_, mute_nil, by simp⟩))
    simp only [held?, reader?, Option.bind_none, Option.bind_some, Reader.holds?, hphase]
  | readerJoined reader result => exact .inr (.inr (.inl ⟨rfl, rfl, rfl⟩))

end Session

/-! ## Participants -/

namespace Participant

variable {p p' : Participant} {act : ParticipantAct}

/-- The id that the reader of a participant holds. -/
def held? (p : Participant) : Option Uuid := p.session?.bind Session.held?

/-- The frame that the reader of a participant is about to inspect. -/
def front? (p : Participant) : Option String := p.session?.bind Session.front?

variable (P) in
/-- A step loses no receipt: an event that is inspected has an id, and a reader that is dropped
holds none. -/
def KeepsReceipts (p : Participant) : ParticipantAct → Prop
  | .session (.reader .inspected) => ∀ raw event, p.front? = some raw →
    inspectEvent P raw = .ok event → event.correlationId.isSome = true
  | .session .readerJoined => p.held? = none
  | _ => True

theorem held?_of_isBetween (h : p.isBetween = true) : p.held? = none := by
  rw [held?, session?_of_isBetween h]
  rfl

/-- A new connection starts without an id. -/
theorem held?_connected :
    (p.goto (.connected (Session.start participant config w))).held? = none :=
  Session.held?_start

theorem mute_recordConnected (sample : ConnectionSample) :
    ∀ e ∈ recordConnected participant sample, e.Mute := by
  cases sample <;> simp [recordConnected, recordSample, Effect.Mute]

theorem mute_recordConnectFailed (error : ConnectError) :
    ∀ e ∈ recordConnectFailed config error, e.Mute := by
  rw [recordConnectFailed]
  split <;> split <;> simp [Effect.Mute]

theorem mute_recordSessionOver (result : Except Failure Unit) :
    ∀ e ∈ recordSessionOver participant config w p result, e.Mute := by
  cases result with
  | ok _ => simp [recordSessionOver, Effect.Mute]
  | error failure =>
    simp only [recordSessionOver]
    split <;> split <;> simp [Effect.Mute]

/-- A step outside a session receives nothing, and no reader holds an id. -/
theorem mute_connection (hact : ∀ a, act ≠ .session a)
    (h : p.step P participant config w act = some (p', out)) :
    p.held? = none ∧ p'.held? = none ∧ ∀ e ∈ out, e.Mute := by
  have hnone : (∀ session, p.phase ≠ .connected session) → p.held? = none := by
    intro hphase
    obtain ⟨phase, attempt, recoveryStarted⟩ := p
    cases phase with
    | connected session => exact absurd rfl (hphase session)
    | _ => rfl
  cases steps_of_step h with
  | session session session' a out hphase hsession => exact absurd rfl (hact a)
  | connect handshakeTime hphase =>
    exact ⟨hnone (by simp [hphase]), rfl, by simp [countConnected, Effect.Mute]⟩
  | reconnect elapsed hphase =>
    exact ⟨hnone (by simp [hphase]), rfl, by simp [Effect.Mute]⟩
  | openRequired sample hphase =>
    exact ⟨hnone (by simp [hphase]), rfl, mute_recordConnected sample⟩
  | openSession sample hphase =>
    exact ⟨hnone (by simp [hphase]), held?_connected, mute_recordConnected sample⟩
  | marked hphase => exact ⟨hnone (by simp [hphase]), rfl, by simp [Effect.Mute]⟩
  | notified hphase =>
    exact ⟨hnone (by simp [hphase]), held?_connected, by simp [Effect.Mute]⟩
  | sessionOver result hphase =>
    refine ⟨?_, held?_of_isBetween (isBetween_afterSession result), mute_recordSessionOver _⟩
    rw [held?, session?, hphase]
    rfl
  | enter endsAt hphase =>
    exact ⟨hnone (by simp [hphase]), held?_of_isBetween isBetween_enter, mute_nil⟩
  | retry factor failure hphase =>
    exact ⟨hnone (by simp [hphase]), held?_of_isBetween (isBetween_retry failure factor), mute_nil⟩
  | connectRetried error source hphase | connectFails error source hphase =>
    exact ⟨hnone (by simp [hphase]), rfl, mute_recordConnectFailed error⟩
  | dial hphase => exact ⟨hnone (by simp [hphase]), rfl, by simp [Effect.Mute]⟩
  -- the steps that record nothing, to a phase without a connection
  | startOver _ hphase | ramp _ _ hphase | redial _ _ hphase | rampCut _ hphase
  | backoffCut _ _ hphase | leave hphase | dialStopped hphase | dialDeadline hphase =>
    exact ⟨hnone (by simp [hphase]), rfl, mute_nil⟩

/-- The ids that a participant holds: one or none. -/
def heldCount (p : Participant) : ℕ := if p.held?.isSome then 1 else 0

/-- **The books of a step of a participant**: what is received is recorded or held, unless the step
loses a receipt. -/
theorem receipts_step (h : p.step P participant config w act = some (p', out)) :
    w.counters .receivedMessages + ((w.applyAll out).receipts + p'.heldCount) ≤
        (w.applyAll out).counters .receivedMessages + (w.receipts + p.heldCount) ∧
      (w.counters .receivedMessages + ((w.applyAll out).receipts + p'.heldCount) =
        (w.applyAll out).counters .receivedMessages + (w.receipts + p.heldCount) ↔
          p.KeepsReceipts P act) := by
  rcases step_cases h with ⟨session, a, session', hphase, rfl, hsession, rfl⟩ | ⟨hact, -⟩
  · have hheld : p.held? = session.held? := by simp only [held?, session?, hphase, Option.bind_some]
    have hfront : p.front? = session.front? := by
      simp only [front?, session?, hphase, Option.bind_some]
    have hheld' : (p.goto (.connected session')).held? = session'.held? := rfl
    rw [heldCount, heldCount, hheld, hheld']
    rcases Session.receipt_cases hsession with ⟨id, rfl, hholds, hholds', rfl⟩ |
      ⟨raw, event, rfl, hraw, hevent, hholds, hholds', rfl⟩ | ⟨rfl, hholds', rfl⟩ |
      ⟨hjoined, hholds', hmute, hinspect⟩
    · -- the id that is held is recorded
      obtain ⟨hreceived, hreceipts⟩ : _ ∧ (w.applyAll (Reader.record participant w id)).receipts =
        w.receipts + 1 := Reader.record_receipts id
      rw [hreceived, hreceipts, hholds, hholds']
      simp [KeepsReceipts]
    · -- an event is counted, and its id is held
      have hreceived : (w.applyAll [.add .receivedMessages 1]).counters .receivedMessages =
          w.counters .receivedMessages + 1 := by simp [World.apply]
      have hreceipts : (w.applyAll [.add .receivedMessages 1]).receipts = w.receipts := rfl
      have hkeeps : p.KeepsReceipts P (.session (.reader .inspected)) ↔
          event.correlationId.isSome = true := by
        constructor
        · exact fun hkeeps => hkeeps raw event (hfront.trans hraw) hevent
        · intro hid raw' event' hraw' hevent'
          obtain rfl := Option.some.inj ((hfront.trans hraw).symm.trans hraw')
          obtain rfl := Except.ok.inj (hevent.symm.trans hevent')
          exact hid
      rw [hkeeps, hreceived, hreceipts, hholds, hholds']
      cases event.correlationId with
      | none => simp
      | some id => simp [Nat.add_assoc, Nat.add_comm 1]
    · -- the reader is gone, with what it holds
      have hkeeps : p.KeepsReceipts P (.session .readerJoined) ↔ session.held? = none := by
        rw [KeepsReceipts, hheld]
      rw [hkeeps, hholds', World.applyAll_nil]
      cases session.held? <;> simp
    · have hkeeps : p.KeepsReceipts P (.session a) := by
        cases a with
        | reader b =>
          cases b with
          | inspected =>
            intro raw event hraw hevent
            exact absurd hevent (hinspect rfl raw event (hfront.symm.trans hraw))
          | _ => trivial
        | readerJoined => exact absurd rfl hjoined
        | _ => trivial
      obtain ⟨hreceived, hreceipts⟩ := World.applyAll_of_mute (w := w) hmute
      rw [hreceived, hreceipts, hholds']
      exact ⟨le_rfl, iff_of_true rfl hkeeps⟩
  · obtain ⟨hheld, hheld', hmute⟩ := mute_connection hact h
    obtain ⟨hreceived, hreceipts⟩ := World.applyAll_of_mute (w := w) hmute
    have hkeeps : p.KeepsReceipts P act := by
      cases act with
      | session a => exact absurd rfl (hact a)
      | _ => trivial
    rw [heldCount, heldCount, hreceived, hreceipts, hheld, hheld']
    exact ⟨le_rfl, iff_of_true rfl hkeeps⟩

end Participant

/-! ## The books of a run -/

namespace Run

variable {r r' r₀ : Run} {act : RunAct} {acts : List RunAct}

/-- The ids that readers hold. -/
def held (r : Run) : ℕ := r.tasks.countP fun task => task.state.held?.isSome

variable (P) in
/-- A step loses no receipt. -/
def KeepsReceipts (r : Run) : RunAct → Prop
  | .task i act => ∀ task, r.tasks[i]? = some task → task.state.KeepsReceipts P act
  | _ => True

/-- **The books of a step.** -/
theorem receipts_step (h : r.step P config act = some r') :
    r.world.counters .receivedMessages + (r'.world.receipts + r'.held) ≤
        r'.world.counters .receivedMessages + (r.world.receipts + r.held) ∧
      (r.world.counters .receivedMessages + (r'.world.receipts + r'.held) =
        r'.world.counters .receivedMessages + (r.world.receipts + r.held) ↔
          r.KeepsReceipts P act) := by
  rcases step_cases h with ⟨i, a, task, state, effects, rfl, hget, hstep, rfl⟩ | ⟨hact, hidle⟩
  · have hkeeps : r.KeepsReceipts P (.task i a) ↔ task.state.KeepsReceipts P a := by
      constructor
      · exact fun hkeeps => hkeeps task hget
      · intro hkeeps other hother
        obtain rfl := Option.some.inj (hget.symm.trans hother)
        exact hkeeps
    obtain ⟨hlt, htask⟩ := List.getElem?_eq_some_iff.mp hget
    have hheld : (r.advance i task state effects).held + task.state.heldCount =
        r.held + state.heldCount := by
      have hle : task.state.heldCount ≤ r.held := by
        rw [Participant.heldCount]
        split
        · next hsome => exact List.countP_pos_iff.mpr ⟨task, List.mem_of_getElem? hget, hsome⟩
        · exact Nat.zero_le _
      simp only [held, advance, List.countP_set hlt, htask, Participant.heldCount] at hle ⊢
      omega
    obtain ⟨hle, hiff⟩ := Participant.receipts_step hstep
    rw [hkeeps, ← hiff]
    simp only [advance] at hheld ⊢
    omega
  · have hkeeps : r.KeepsReceipts P act := by
      cases act with
      | task i a => exact absurd rfl (hact i a)
      | _ => trivial
    have hheld : r'.held = r.held := by rw [held, held, hidle.tasks]
    rw [hheld, World.receipts, World.receipts, hidle.counters, hidle.ledger]
    exact ⟨le_rfl, iff_of_true rfl hkeeps⟩

theorem held_spawn (delays : List Duration) (stop : Bool) :
    (spawn config delays stop).held = 0 := by
  rw [held, List.countP_eq_zero]
  intro task htask
  obtain ⟨-, -, delay, hstate⟩ := exists_of_mem_spawn htask
  rw [hstate]
  exact Bool.false_ne_true

/-- **The books of what is received** balance exactly when no step loses a receipt: an event
received is a duplicate, or seen for the first time by its receiver, or its id is held by a reader
that waits for the ledger. Otherwise more is received than recorded, never less. -/
theorem receipts_iff {started : ℤ} {shuffle : ℕ → List Duration → List Duration}
    {options : SafetyOptions} {stop : Bool}
    (hstart : start config started shuffle options stop = .ok r₀)
    (h : (machine P config).exec r₀ acts = some r) :
    r.world.counters .duplicateMessages + r.world.ledger.seen.keys.length + r.held ≤
        r.world.counters .receivedMessages ∧
      (r.world.counters .duplicateMessages + r.world.ledger.seen.keys.length + r.held =
        r.world.counters .receivedMessages ↔
          (machine P config).Along (KeepsReceipts P) r₀ acts) := by
  obtain ⟨-, delays, rfl⟩ := exists_of_mem_start hstart
  have hspawn : (spawn config delays stop).world.receipts +
      (spawn config delays stop).held = 0 := by
    rw [held_spawn]
    rfl
  have hnone : (spawn config delays stop).world.counters .receivedMessages = 0 := rfl
  have hgap : (spawn config delays stop).world.counters .receivedMessages +
      (r.world.receipts + r.held) ≤ r.world.counters .receivedMessages +
        ((spawn config delays stop).world.receipts + (spawn config delays stop).held) :=
    Machine.exec_gap (m := machine P config) (fun _ _ _ hstep => (receipts_step hstep).1) h
  have hiff := Machine.exec_gap_iff (m := machine P config) (fun r => r.world.receipts + r.held)
    (fun r => r.world.counters .receivedMessages) (fun _ _ _ hstep => (receipts_step hstep).1)
    (fun _ _ _ hstep => (receipts_step hstep).2) h
  simp only [hspawn, hnone] at hgap hiff
  rw [← hiff]
  simp only [World.receipts] at hgap ⊢
  omega

/-- A run in which one event is received and recorded. -/
theorem receipts_iff_recorded :
    ∃ acts r, (machine Reference.platform (Delivered.expecting none)).exec
        (spawn (Delivered.expecting none) [0, 0] false) acts = some r ∧
      r.world.counters .receivedMessages = 1 ∧
      (machine Reference.platform (Delivered.expecting none)).Along
        (KeepsReceipts Reference.platform) (spawn (Delivered.expecting none) [0, 0] false)
        acts := by
  have hne : Delivered.eventBytes Reference.platform ≠ [] := asBytes_toXml_ne_nil _
  obtain ⟨hpush, hinspect⟩ := Delivered.reference_reading
  have hexec := Machine.exec_append
    (Delivered.exec_connecting (P := Reference.platform) none (.inl rfl))
    (Machine.exec_append
      (Delivered.exec_sending (P := Reference.platform) none rfl hne Delivered.length_eventBytes)
      (Delivered.exec_reading (P := Reference.platform) _ _ _ hne Delivered.length_eventBytes hpush
        hinspect))
  exact ⟨_, _, hexec, rfl,
    (receipts_iff (Delivered.start_expecting (.inl rfl)) hexec).2.mp rfl⟩

end Run

end TakBench
