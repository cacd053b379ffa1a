import Mathlib.Data.List.ModifyLast
import TakBench.Names
import TakBench.Protocol.Loss
import TakBench.Scenario.Intake
import TakBench.Scenario.Roles

/-!
# The sockets of a receiver

A participant has a socket for each of its connections, and reads what the server puts there from
the first byte on. What it records of an event is what it has read: the ids recorded in a run are
among those on its sockets, and a reader that waits for its next read has recorded all it has read.
So a server that puts each event of a sender on one of the receiver's sockets, once, where the
receiver reads it in time, makes the verdict on the receiver pass.

## Main definitions

* `idsOn`: the correlation ids on a socket
* `Run.sockets`: the bytes that a participant has read, connection by connection
* `Heard`: what a participant has recorded is on its sockets
* `Run.Relays`: a server that puts events on the sockets of a receiver

## Main results

* `Heard.step`: a step records what is read
* `Run.received_of_relays`: the verdict on a receiver that reads in time what the server puts on its
  sockets
-/

namespace TakBench

open Search Scanner Utf8 CotStreamDecoder

variable {P : Platform} {participant : ParticipantConfig} {config : AppConfig} {w : World}
  {stream front kept : List UInt8} {events : List ReceivedEvent} {waiting : List String}
  {log out : List Effect} {held : List Uuid}

/-! ## The ids on a socket -/

variable (P) in
/-- The correlation id that a frame carries. -/
def frameId (raw : String) : Option Uuid := (inspectEvent P raw).toOption.bind (·.correlationId)

variable (P) in
/-- The correlation ids on a socket: those of the frames before the first one that offends or is not
complete. -/
def idsOn (stream : List UInt8) : List Uuid :=
  (locate (validateXml P) (8 * 1024 * 1024) 0 stream).filterMap fun f => frameId P f.raw

variable (P) in
/-- Nothing of an event is open at the end of the bytes. -/
def IsWhole (bytes : List UInt8) : Prop :=
  ∃ raws kept, scan (validateXml P) (8 * 1024 * 1024) bytes = .ok (raws, kept) ∧
    position eventOpen kept = none

@[simp] theorem idsOn_nil : idsOn P [] = [] := by
  have hnone : position eventOpen [] = none := by decide
  rw [idsOn, locate_of_no_open hnone]
  rfl

theorem isWhole_nil : IsWhole P [] := ⟨[], [], scan_nil _ _, by decide⟩

theorem IsRead.ids {raws : List String} (h : IsRead P raws events) :
    raws.filterMap (frameId P) = events.filterMap (·.correlationId) :=
  calc raws.filterMap (frameId P)
    _ = (raws.map (inspectEvent P)).filterMap fun r => r.toOption.bind (·.correlationId) := by
        rw [List.filterMap_map]
        rfl
    _ = events.filterMap (·.correlationId) := by
        rw [h, List.filterMap_map]
        rfl

/-- The ids on a socket stay when there is more on it. -/
theorem idsOn_mono (h : front <+: stream) : idsOn P front <+: idsOn P stream := by
  obtain ⟨rest, rfl⟩ := h
  exact (locate_mono 0 front rest).filterMap _

/-- The ids on a socket are those of the frames that a scan finds. -/
theorem idsOn_of_scan {raws : List String}
    (h : scan (validateXml P) (8 * 1024 * 1024) stream = .ok (raws, kept)) :
    idsOn P stream = raws.filterMap (frameId P) := by
  have hraws : (locate (validateXml P) (8 * 1024 * 1024) 0 stream).map (·.raw) = raws :=
    ((pushLoop_locate (validateXml P) (8 * 1024 * 1024) 0 stream []).2.2 _
      (congrArg Prod.snd (pushLoop_of_scan h))).symm
  rw [← hraws, List.filterMap_map]
  rfl

/-- What is read off the front of a stream carries the first ids on the socket. -/
theorem ReadsOff.ids_prefix (h : ReadsOff P front events waiting kept) (hfront : front <+: stream) :
    events.filterMap (·.correlationId) <+: idsOn P stream := by
  obtain ⟨raws, hscan, hread⟩ := h
  have hids := idsOn_of_scan hscan
  rw [List.filterMap_append, hread.ids] at hids
  exact (hids ▸ List.prefix_append _ _).trans (idsOn_mono hfront)

/-- An event behind whole messages is one of those that a stream decodes to. -/
theorem Decodes.mem_ids {front : List UInt8} {e : PositionEvent} (hS : P.Standard) (hP : P.Plain)
    (h : Decodes P stream events) (hwhole : IsWhole P front)
    (hput : front ++ asBytes (e.toXml P) <+: stream) :
    e.correlationId ∈ events.filterMap (·.correlationId) := by
  obtain ⟨kept, raws, hscan, hread⟩ := decodes_iff.mp h
  rw [List.append_nil] at hscan
  obtain ⟨before, kept', hbefore, hclosed⟩ := hwhole
  obtain ⟨rest, rfl⟩ := hput
  rw [List.append_assoc, (scan_lawful _ _).ok_append _ hbefore] at hscan
  rw [scan_toXml hS hP hclosed] at hscan
  have hmem : e.toXml P ∈ raws := by
    -- the frame is taken, since the stream decodes
    split at hscan
    · cases hscan
    cases hrest : scan (validateXml P) (8 * 1024 * 1024) rest with
    | error err =>
      rw [hrest] at hscan
      cases hscan
    | ok p =>
      rw [hrest] at hscan
      obtain ⟨rfl, -⟩ := Prod.mk.inj (Except.ok.inj hscan)
      simp
  rw [← hread.ids]
  refine List.mem_filterMap.mpr ⟨_, hmem, ?_⟩
  rw [frameId, inspectEvent_toXml hS hP]
  rfl

/-! ## Sockets -/

/-- What is read on each connection is the front of what is there. -/
def Fronts (sockets sockets' : List (List UInt8)) : Prop :=
  ∀ (k : ℕ) stream, sockets[k]? = some stream →
    ∃ stream', sockets'[k]? = some stream' ∧ stream <+: stream'

namespace Fronts

variable {sockets sockets' sockets'' : List (List UInt8)}

theorem refl (sockets : List (List UInt8)) : Fronts sockets sockets :=
  fun _ stream hk => ⟨stream, hk, List.prefix_rfl⟩

theorem trans (h : Fronts sockets sockets') (h' : Fronts sockets' sockets'') :
    Fronts sockets sockets'' := by
  intro k stream hk
  obtain ⟨stream', hk', hfront⟩ := h k stream hk
  obtain ⟨stream'', hk'', hfront'⟩ := h' k stream' hk'
  exact ⟨stream'', hk'', hfront.trans hfront'⟩

/-- There are no more ids in what is read than on the sockets. -/
theorem count_le (h : Fronts sockets sockets') (id : Uuid) :
    (sockets.flatMap (idsOn P)).count id ≤ (sockets'.flatMap (idsOn P)).count id := by
  induction sockets generalizing sockets' with
  | nil => exact Nat.zero_le _
  | cons stream sockets ih =>
    cases sockets' with
    | nil =>
      obtain ⟨_, hnone, -⟩ := h 0 stream rfl
      cases hnone
    | cons stream' sockets' =>
      obtain ⟨_, hfirst, hfront⟩ := h 0 stream rfl
      obtain rfl := Option.some.inj hfirst
      have hrest : Fronts sockets sockets' := fun k other hk => h (k + 1) other hk
      rw [List.flatMap_cons, List.flatMap_cons, List.count_append, List.count_append]
      exact Nat.add_le_add ((idsOn_mono hfront).sublist.count_le id) (ih hrest)

/-- More is read on the last connection. -/
theorem concat {earlier : List (List UInt8)} {stream stream' : List UInt8}
    (h : stream <+: stream') : Fronts (earlier ++ [stream]) (earlier ++ [stream']) := by
  intro k other hk
  rcases Nat.lt_or_ge k earlier.length with hlt | hle
  · rw [List.getElem?_append_left hlt] at hk ⊢
    exact ⟨other, hk, List.prefix_rfl⟩
  · rw [List.getElem?_append_right hle] at hk ⊢
    rw [List.getElem?_singleton, Option.ite_none_right_eq_some] at hk
    obtain ⟨hzero, hstream⟩ := hk
    exact ⟨stream', by rw [hzero, List.getElem?_cons_zero], Option.some.inj hstream ▸ h⟩

end Fronts

/-- The bytes that a participant has read, connection by connection, after a step: it opens a
connection, or reads on the last one. -/
def ParticipantAct.read (sockets : List (List UInt8)) : ParticipantAct → List (List UInt8)
  | .connected _ => sockets ++ [[]]
  | .session act => sockets.modifyLast (· ++ act.bytes)
  | _ => sockets

theorem ParticipantAct.fronts_read (act : ParticipantAct) (sockets : List (List UInt8)) :
    Fronts sockets (act.read sockets) := by
  cases act with
  | connected _ =>
    intro k stream hk
    have hlt : k < sockets.length := (List.getElem?_eq_some_iff.mp hk).1
    exact ⟨stream, (List.getElem?_append_left hlt).trans hk, List.prefix_rfl⟩
  | session act =>
    rcases sockets.eq_nil_or_concat with rfl | ⟨earlier, last, rfl⟩
    · exact fun k stream hk => (by cases hk)
    · rw [List.concat_eq_append, read, List.modifyLast_concat]
      exact Fronts.concat (List.prefix_append _ _)
  | _ => exact Fronts.refl _

/-! ## What a participant has heard -/

theorem Effect.observe_of_recorded? {e : Effect} {id : Uuid} (h : e.recorded? = some id) :
    ∃ receiver, e = .observe receiver id := by
  cases e with
  | observe receiver id' => exact ⟨receiver, congrArg _ (Option.some.inj h)⟩
  | _ => cases h

/-- How often a log records an id. -/
def records (log : List Effect) (id : Uuid) : ℕ := (log.filterMap Effect.recorded?).count id

theorem records_append (log out : List Effect) (id : Uuid) :
    records (log ++ out) id = records log id + records out id := by
  rw [records, List.filterMap_append, List.count_append]
  rfl

theorem records_pos {receiver : String} {id : Uuid} (h : .observe receiver id ∈ out) :
    0 < records out id :=
  List.count_pos_iff.mpr (List.mem_filterMap.mpr ⟨_, h, rfl⟩)

variable (P) in
/-- The ids recorded in a log are on the sockets, at least as often. -/
def OnSockets (sockets : List (List UInt8)) (log : List Effect) : Prop :=
  ∀ id, records log id ≤ (sockets.flatMap (idsOn P)).count id

section OnSockets

variable {sockets : List (List UInt8)}

theorem OnSockets.append (h : OnSockets P sockets log) (hout : ∀ e ∈ out, e.Mute) :
    OnSockets P sockets (log ++ out) := by
  intro id
  have hnone : out.filterMap Effect.recorded? = [] :=
    List.filterMap_eq_nil_iff.mpr fun e he => (hout e he).counts.2
  rw [records_append, records, records, hnone]
  exact h id

/-- Nothing is on a socket that is open for the first time. -/
theorem onSockets_open : OnSockets P (sockets ++ [[]]) log ↔ OnSockets P sockets log := by
  simp [OnSockets]

/-- A session records what is on its socket. -/
theorem Session.InStep.recorded_prefix {session : Session} (h : session.InStep P stream log) :
    log.filterMap Effect.recorded? <+: idsOn P stream := by
  obtain ⟨front, events, waiting, kept, held, hfront, hread, hnoted, -⟩ := h.readsOff
  have hfirst : log.filterMap Effect.recorded? <+: log.filterMap Effect.recorded? ++ held :=
    List.prefix_append _ _
  rw [hnoted.recorded] at hfirst
  exact hfirst.trans (hread.ids_prefix hfront)

theorem OnSockets.session {session : Session} {before : List Effect}
    (h : OnSockets P sockets before) (hsession : session.InStep P stream log) :
    OnSockets P (sockets ++ [stream]) (before ++ log) := by
  intro id
  rw [records_append, List.flatMap_append, List.count_append, List.flatMap_singleton]
  exact Nat.add_le_add (h id) (hsession.recorded_prefix.sublist.count_le id)

end OnSockets

/-- Is a connection open that has no session yet? -/
def Participant.isOpening (p : Participant) : Bool :=
  match p.phase with
  | .sampling _ | .marking | .notifying => true
  | _ => false

theorem Participant.isOpening_of_isBetween {p : Participant} (h : p.isBetween = true) :
    p.isOpening = false := by
  obtain ⟨phase, attempt, recoveryStarted⟩ := p
  cases phase <;> first | rfl | cases h

variable (P) in
/-- What a task has recorded is on its sockets, and its session is in step with the last one. -/
structure Heard (sockets : List (List UInt8)) (task : Task) : Prop where
  recorded : OnSockets P sockets task.log
  opening : task.state.isOpening = true → ∃ earlier, sockets = earlier ++ [[]]
  session : ∀ session, task.state.session? = some session →
    ∃ earlier stream before log, sockets = earlier ++ [stream] ∧ task.log = before ++ log ∧
      OnSockets P earlier before ∧ session.InStep P stream log

namespace Heard

variable {sockets : List (List UInt8)} {task : Task} {act : ParticipantAct} {state : Participant}

/-- A task without a connection has recorded what is on its sockets. -/
theorem of_closed (h : OnSockets P sockets task.log) (hopening : task.state.isOpening = false)
    (hsession : task.state.session? = none) : Heard P sockets task :=
  ⟨h, fun hopen => absurd hopen (by simp [hopening]),
    fun session hsome => by rw [hsession] at hsome; cases hsome⟩

theorem of_between (h : OnSockets P sockets task.log) (hbetween : task.state.isBetween = true) :
    Heard P sockets task :=
  of_closed h (Participant.isOpening_of_isBetween hbetween)
    (Participant.session?_of_isBetween hbetween)

/-- A session starts on a socket that nothing is read on. -/
theorem of_start (h : OnSockets P sockets log) (p : Participant) (w : World) :
    Heard P (sockets ++ [[]])
      ⟨participant, p.goto (.connected (Session.start participant config w)), log⟩ where
  recorded := onSockets_open.mpr h
  opening hopen := by cases hopen
  session session hsession :=
    ⟨sockets, [], log, [], rfl, (List.append_nil _).symm, h,
      Option.some.inj hsession ▸ Session.inStep_start⟩

/-- **A step records what is read.** -/
theorem step (htask : Heard P sockets task)
    (h : task.state.step P task.participant config w act = some (state, out)) :
    Heard P (act.read sockets) { task with state, log := task.log ++ out } := by
  obtain ⟨participant, p, log⟩ := task
  simp only at h
  rcases Participant.step_cases h with ⟨session, a, session', hphase, rfl, hsession, rfl⟩ |
    ⟨hact, -⟩
  · -- the session reads on the last socket
    obtain ⟨earlier, stream, before, log', rfl, rfl, hbefore, hstep⟩ := htask.session session
      (by simp only [Participant.session?, hphase])
    have hstep' := Session.inStep_step hstep hsession
    rw [ParticipantAct.read, List.modifyLast_concat, List.append_assoc]
    refine ⟨hbefore.session hstep', fun hopen => (by cases hopen), fun other hother => ?_⟩
    exact ⟨earlier, _, before, _, rfl, rfl, hbefore, Option.some.inj hother ▸ hstep'⟩
  · obtain ⟨-, -, hmute⟩ := Participant.mute_connection hact h
    have hrecorded : OnSockets P sockets (log ++ out) := htask.recorded.append hmute
    cases Participant.steps_of_step h with
    | session session session' a out hphase hsession => exact absurd rfl (hact a)
    -- a socket is open from the dial on, and nothing is read on it before its session
    | connect handshakeTime hphase =>
      exact ⟨onSockets_open.mpr hrecorded, fun _ => ⟨sockets, rfl⟩, fun _ hnone => by cases hnone⟩
    | reconnect elapsed hphase | openRequired sample hphase | marked hphase =>
      exact ⟨hrecorded, fun _ => htask.opening (by simp [Participant.isOpening, hphase]),
        fun _ hnone => by cases hnone⟩
    | openSession sample hphase | notified hphase =>
      obtain ⟨earlier, rfl⟩ := htask.opening (by simp [Participant.isOpening, hphase])
      exact of_start (onSockets_open.mp hrecorded) p w
    | enter endsAt hphase =>
      exact of_between hrecorded Participant.isBetween_enter
    | sessionOver result hphase =>
      exact of_between hrecorded (Participant.isBetween_afterSession result)
    | retry factor failure hphase =>
      exact of_between hrecorded (Participant.isBetween_retry failure factor)
    | _ => exact of_closed hrecorded rfl rfl

end Heard

/-! ## A run -/

/-- What the steps of a run do to the bytes that the `i`-th participant has read. -/
def RunAct.read (i : ℕ) (sockets : List (List UInt8)) : RunAct → List (List UInt8)
  | .task j act => if i = j then act.read sockets else sockets
  | _ => sockets

theorem RunAct.fronts_read {i : ℕ} (act : RunAct) (sockets : List (List UInt8)) :
    Fronts sockets (act.read i sockets) := by
  cases act with
  | task j a =>
    rw [read]
    split
    · exact a.fronts_read _
    · exact Fronts.refl _
  | _ => exact Fronts.refl _

namespace Run

variable {r r' r₀ u : Run} {act : RunAct} {acts before after : List RunAct} {i : ℕ}

/-- The bytes that the `i`-th participant has read in a run, connection by connection. -/
def sockets (i : ℕ) (acts : List RunAct) : List (List UInt8) := acts.foldl (RunAct.read i) []

theorem sockets_concat (acts : List RunAct) (act : RunAct) :
    sockets i (acts ++ [act]) = act.read i (sockets i acts) :=
  List.foldl_concat ..

theorem fronts_sockets (before after : List RunAct) :
    Fronts (sockets i before) (sockets i (before ++ after)) := by
  induction after using List.reverseRecOn with
  | nil =>
    rw [List.append_nil]
    exact Fronts.refl _
  | append_singleton after act ih =>
    rw [← List.append_assoc, sockets_concat]
    exact ih.trans (act.fronts_read _)

/-- **What the participants of a run have recorded is on their sockets.** -/
theorem heard_of_exec {started : ℤ} {shuffle : ℕ → List Duration → List Duration}
    {options : SafetyOptions} {stop : Bool}
    (hstart : start config started shuffle options stop = .ok r₀)
    (h : (machine P config).exec r₀ acts = some r) :
    ∀ i task, r.tasks[i]? = some task → Heard P (sockets i acts) task := by
  obtain ⟨-, delays, rfl⟩ := exists_of_mem_start hstart
  have hspawn : ∀ i task, (spawn config delays stop).tasks[i]? = some task →
      Heard P (sockets i []) task := by
    intro i task hget
    obtain ⟨-, hlog, delay, hstate⟩ := exists_of_mem_spawn (List.mem_of_getElem? hget)
    have hnone : OnSockets P [] task.log := fun id => by simp [hlog, records]
    exact .of_closed hnone (by rw [hstate]; rfl) (by rw [hstate]; rfl)
  have hstep : ∀ (r : Run) before act r',
      (∀ i task, r.tasks[i]? = some task → Heard P (sockets i before) task) →
      r.step P config act = some r' →
      ∀ i task, r'.tasks[i]? = some task → Heard P (sockets i (before ++ [act])) task := by
    intro r before act r' hr hstep i task hget
    rw [sockets_concat]
    rcases step_cases hstep with ⟨j, a, other, state, out, rfl, hother, htask, rfl⟩ |
      ⟨hact, hidle⟩
    · rw [RunAct.read]
      by_cases hij : i = j
      · subst hij
        rw [if_pos rfl]
        rw [advance, List.getElem?_set_self (List.getElem?_eq_some_iff.mp hother).1] at hget
        obtain rfl := Option.some.inj hget
        exact (hr i other hother).step htask
      · rw [if_neg hij]
        rw [advance, List.getElem?_set_ne (Ne.symm hij)] at hget
        exact hr i task hget
    · rw [hidle.tasks] at hget
      cases act with
      | task j a => exact absurd rfl (hact j a)
      | _ => exact hr i task hget
  have hall := Machine.exec_invariant_inputs (m := machine P config)
    (I := fun r acts => ∀ i task, r.tasks[i]? = some task → Heard P (sockets i acts) task)
    hstep hspawn h
  exact hall

/-! ## The ledger -/

section Ledger

variable {receiver : String} {id : Uuid}

/-- A participant records events under its name. -/
theorem named_invariant : TaskInvariant P config fun _ task =>
    ∀ receiver id, .observe receiver id ∈ task.log → receiver = task.participant.id where
  spawn _ _ _ _ _ _ hmem := by cases hmem
  later _ _ _ _ _ htask := htask
  step _ _ _ _ _ htask h receiver id hmem :=
    (List.mem_append.mp hmem).elim (htask receiver id) (Participant.observe_step h)

/-- What is recorded for a receiver is in the ledger, since a time that has passed. -/
def Seen (receiver : String) (r : Run) : Prop :=
  ∀ task ∈ r.tasks, ∀ id, .observe receiver id ∈ task.log →
    ∃ seen, r.world.ledger.seen.lookup (receiver, id) = some seen ∧ seen ≤ r.world.now

theorem Seen.step (hr : r.Seen receiver) (h : r.step P config act = some r') :
    r'.Seen receiver := by
  rcases step_cases h with ⟨i, a, task, state, out, rfl, hget, -, rfl⟩ | ⟨-, hidle⟩
  · intro other hother id hmem
    show ∃ seen, (r.world.applyAll out).ledger.seen.lookup (receiver, id) = some seen ∧
      seen ≤ (r.world.applyAll out).now
    rw [World.seen_applyAll, World.applyAll_now]
    by_cases hnow : .observe receiver id ∈ out
    · exact ⟨_, if_pos hnow, Nat.le_refl _⟩
    · rw [if_neg hnow]
      -- it was in the log before
      rcases List.mem_or_eq_of_mem_set hother with hother | rfl
      · exact hr other hother id hmem
      · exact hr task (List.mem_of_getElem? hget) id ((List.mem_append.mp hmem).resolve_right hnow)
  · intro task htask id hmem
    rw [hidle.tasks] at htask
    obtain ⟨seen, hseen, hle⟩ := hr task htask id hmem
    exact ⟨seen, hidle.ledger ▸ hseen, hle.trans hidle.now⟩

/-- An entry of a receiver stays in the ledger until its task records the id again. -/
def Stays (i : ℕ) (receiver : String) (id : Uuid) (u r : Run) : Prop :=
  r.Distinct ∧ ∃ task task', u.tasks[i]? = some task ∧ r.tasks[i]? = some task' ∧
    task'.participant.id = receiver ∧ records task.log id ≤ records task'.log id ∧
    (r.world.ledger.seen.lookup (receiver, id) = u.world.ledger.seen.lookup (receiver, id) ∨
      records task.log id < records task'.log id)

theorem Stays.step (hr : Stays i receiver id u r) (h : r.step P config act = some r') :
    Stays i receiver id u r' := by
  obtain ⟨hdistinct, task, task', hu, hget, hname, hle, hsame⟩ := hr
  have hdistinct' : r'.Distinct := by
    rw [Distinct, ids_step h]
    exact hdistinct
  refine ⟨hdistinct', task, ?_⟩
  rcases step_cases h with ⟨j, a, other, state, out, rfl, hother, hstep, rfl⟩ | ⟨-, hidle⟩
  · have hlt : j < r.tasks.length := (List.getElem?_eq_some_iff.mp hother).1
    by_cases hij : j = i
    · subst hij
      obtain rfl := Option.some.inj (hget.symm.trans hother)
      refine ⟨_, hu, List.getElem?_set_self hlt, hname, ?_, ?_⟩
      · rw [records_append]
        exact hle.trans (Nat.le_add_right _ _)
      · show (r.world.applyAll out).ledger.seen.lookup (receiver, id) = _ ∨ _
        rw [World.seen_applyAll, records_append]
        by_cases hnow : .observe receiver id ∈ out
        · exact .inr (hle.trans_lt (Nat.lt_add_of_pos_right (records_pos hnow)))
        · rw [if_neg hnow]
          exact hsame.imp_right fun hlt => hlt.trans_le (Nat.le_add_right _ _)
    · -- another task records under another name
      have hnow : .observe receiver id ∉ out := by
        intro hmem
        have hname' := Participant.observe_step hstep hmem
        exact hij (hdistinct.eq_of_id_eq hother hget (hname'.symm.trans hname.symm))
      refine ⟨task', hu, (List.getElem?_set_ne hij).trans hget, hname, hle, ?_⟩
      show (r.world.applyAll out).ledger.seen.lookup (receiver, id) = _ ∨ _
      rw [World.seen_applyAll, if_neg hnow]
      exact hsame
  · exact ⟨task', hu, hidle.tasks ▸ hget, hname, hle, hidle.ledger ▸ hsame⟩

theorem seen_of_exec (receiver : String) {started : ℤ}
    {shuffle : ℕ → List Duration → List Duration} {options : SafetyOptions} {stop : Bool}
    (hstart : start config started shuffle options stop = .ok r₀)
    (h : (machine P config).exec r₀ acts = some r) : r.Seen receiver := by
  obtain ⟨-, delays, rfl⟩ := exists_of_mem_start hstart
  refine Machine.exec_invariant (m := machine P config) (fun _ _ _ hr hstep => hr.step hstep) ?_ h
  intro task htask id hmem
  obtain ⟨-, hlog, -⟩ := exists_of_mem_spawn htask
  rw [hlog] at hmem
  cases hmem

end Ledger

/-- The names of the participants of a run are distinct. -/
theorem distinct_of_exec {started : ℤ} {shuffle : ℕ → List Duration → List Duration}
    {options : SafetyOptions} {stop : Bool}
    (hstart : start config started shuffle options stop = .ok r₀)
    (h : (machine P config).exec r₀ acts = some r) : r.Distinct := by
  obtain ⟨haccepted, delays, rfl⟩ := exists_of_mem_start hstart
  refine Machine.exec_invariant (m := machine P config) (fun s _ t hs hstep => ?_)
    (distinct_spawn (accepted_of_validateWithOptions haccepted).nodup_ids) h
  rw [Distinct, ids_step hstep]
  exact hs

/-! ## The verdict -/

variable (P) in
/-- An event ends with the `n`-th byte that a server puts on the socket of connection `k`, behind
whole messages. -/
def IsPut (puts : List (List UInt8)) (k n : ℕ) (e : PositionEvent) : Prop :=
  ∃ front stream, puts[k]? = some stream ∧ IsWhole P front ∧
    front ++ asBytes (e.toXml P) <+: stream ∧ (front ++ asBytes (e.toXml P)).length = n

variable (P config) in
/-- What a server puts on the sockets of the `i`-th participant: each event of the sender that is
written and published, and no other event with its id. -/
structure Relays (r₀ : Run) (acts : List RunAct) (i : ℕ) (sender : String)
    (puts : List (List UInt8)) : Prop where
  /-- a socket hands over what is put on it, from the first byte on -/
  fronts : Fronts (sockets i acts) puts
  put : ∀ id, Published (chronicle P config r₀ acts) sender id →
    ∃ k n e, IsPut P puts k n e ∧ e.correlationId = id
  once : ∀ id, Published (chronicle P config r₀ acts) sender id →
    (puts.flatMap (idsOn P)).count id ≤ 1

variable (P config) in
/-- At some moment up to a time, the `i`-th participant has read `n` bytes from connection `k`, and
its reader waits for more. -/
def ReadsBy (r₀ : Run) (acts : List RunAct) (i k n : ℕ) (time : Instant) : Prop :=
  ∃ before after u task session reader since earlier stream,
    acts = before ++ after ∧ (machine P config).exec r₀ before = some u ∧ u.world.now ≤ time ∧
    u.tasks[i]? = some task ∧ task.state.session? = some session ∧
    session.reader? = some reader ∧ reader.phase = .reading since ∧
    sockets i before = earlier ++ [stream] ∧ earlier.length = k ∧ n ≤ stream.length

/-- **A reader that waits has recorded the events that it has read.** -/
theorem records_of_readsBy {started : ℤ} {shuffle : ℕ → List Duration → List Duration}
    {options : SafetyOptions} {stop : Bool} {puts : List (List UInt8)} {k n : ℕ}
    {e : PositionEvent} {time : Instant} (hS : P.Standard) (hP : P.Plain)
    (hstart : start config started shuffle options stop = .ok r₀)
    (hfronts : Fronts (sockets i acts) puts) (hput : IsPut P puts k n e)
    (hread : ReadsBy P config r₀ acts i k n time) :
    ∃ before after u task, acts = before ++ after ∧ (machine P config).exec r₀ before = some u ∧
      u.world.now ≤ time ∧ u.tasks[i]? = some task ∧ 0 < records task.log e.correlationId := by
  obtain ⟨before, after, u, task, session, reader, since, earlier, stream, rfl, hu, htime, hget,
    hsession, hreader, hphase, hsockets, rfl, hn⟩ := hread
  obtain ⟨front, stream', hstream', hwhole, hfront, rfl⟩ := hput
  refine ⟨before, after, u, task, rfl, hu, htime, hget, ?_⟩
  obtain ⟨earlier', stream'', log', log, hsockets', hlog, -, hstep⟩ :=
    (heard_of_exec hstart hu i task hget).session session hsession
  obtain ⟨rfl, hlast⟩ := List.append_inj' (hsockets.symm.trans hsockets') rfl
  obtain rfl := List.singleton_inj.mp hlast
  -- what is read begins with the event and what is in front of it
  have hlater : Fronts (earlier ++ [stream]) puts :=
    hsockets ▸ (fronts_sockets before after).trans hfronts
  obtain ⟨other, hother, hprefix⟩ := hlater earlier.length stream (by simp)
  obtain rfl := Option.some.inj (hstream'.symm.trans hother)
  have hevent : front ++ asBytes (e.toXml P) <+: stream :=
    List.prefix_of_prefix_length_le hfront hprefix hn
  obtain ⟨events, hdecodes, hnoted⟩ := hstep.rest hreader hphase
  have hmem := hdecodes.mem_ids hS hP hwhole hevent
  rw [← hnoted.recorded, List.append_nil] at hmem
  rw [hlog, records_append]
  exact Nat.add_pos_right _ (List.count_pos_iff.mpr hmem)

/-- **What a receiver reads in time, and once, is seen in time.** -/
theorem seen_of_relays {started : ℤ} {shuffle : ℕ → List Duration → List Duration}
    {options : SafetyOptions} {stop : Bool} {puts : List (List UInt8)} {task : Task} {k n : ℕ}
    {e : PositionEvent} {time : Instant} (hS : P.Standard) (hP : P.Plain)
    (hstart : start config started shuffle options stop = .ok r₀)
    (h : (machine P config).exec r₀ acts = some r) (hget : r.tasks[i]? = some task)
    (hfronts : Fronts (sockets i acts) puts) (hput : IsPut P puts k n e)
    (honce : (puts.flatMap (idsOn P)).count e.correlationId ≤ 1)
    (hread : ReadsBy P config r₀ acts i k n time) :
    ∃ seen, r.world.ledger.seen.lookup (task.participant.id, e.correlationId) = some seen ∧
      seen ≤ time := by
  obtain ⟨before, after, u, task', rfl, hu, htime, hget', hrecords⟩ :=
    records_of_readsBy hS hP hstart hfronts hput hread
  obtain ⟨v, hv, hafter⟩ := Machine.exists_of_exec_append h
  obtain rfl := Option.some.inj (hu.symm.trans hv)
  -- the event is in the ledger by then
  have hlog : .observe task'.participant.id e.correlationId ∈ task'.log := by
    obtain ⟨effect, hmem, heffect⟩ := List.mem_filterMap.mp (List.count_pos_iff.mp hrecords)
    obtain ⟨receiver, rfl⟩ := Effect.observe_of_recorded? heffect
    rwa [← named_invariant.run hstart hu task' (List.mem_of_getElem? hget') receiver _ hmem]
  obtain ⟨seen, hseen, hle⟩ := seen_of_exec _ hstart hu task' (List.mem_of_getElem? hget') _ hlog
  -- and its entry stays, since it is not recorded again
  have hstays : Stays i task'.participant.id e.correlationId u u :=
    ⟨distinct_of_exec hstart hu, task', task', hget', hget', rfl, Nat.le_refl _, .inl rfl⟩
  obtain ⟨-, first, last, hfirst, hlast, hname, -, hsame⟩ := Machine.exec_invariant
    (m := machine P config) (fun _ _ _ hr hstep => Stays.step hr hstep) hstays hafter
  obtain rfl := Option.some.inj (hget'.symm.trans hfirst)
  obtain rfl := Option.some.inj (hget.symm.trans hlast)
  have hcount : records task.log e.correlationId ≤ 1 :=
    calc records task.log e.correlationId
      _ ≤ ((sockets i (before ++ after)).flatMap (idsOn P)).count e.correlationId :=
          (heard_of_exec hstart h i task hget).recorded _
      _ ≤ (puts.flatMap (idsOn P)).count e.correlationId := hfronts.count_le _
      _ ≤ 1 := honce
  rw [hname, hsame.resolve_right (by omega), hseen]
  exact ⟨seen, rfl, hle.trans htime⟩

/-- **The verdict on an expected receiver passes** when a server puts every event of the sender on
its sockets, once, and its reader has read each one, and waits for more, within the timeout since it
was made, and if there is one. -/
theorem received_of_relays {started : ℤ} {shuffle : ℕ → List Duration → List Duration}
    {options : SafetyOptions} {stop : Bool} {outcome : ScenarioOutcome}
    {assertion : RoutingAssertion} {receiver : String} {puts : List (List UInt8)} {task : Task}
    (hS : P.Standard) (hP : P.Plain)
    (hstart : start config started shuffle options stop = .ok r₀)
    (h : (machine P config).exec r₀ acts = some r)
    (hfresh : (machine P config).Along Fresh r₀ acts)
    (hend : r.step P config .evaluate = some r') (hmain : r'.main = .returned outcome)
    (hassertion : assertion ∈ config.scenario.routing)
    (hreceiver : receiver ∈ assertion.receivers)
    (hget : r.tasks[i]? = some task) (hname : task.participant.id = receiver)
    (hrelays : Relays P config r₀ acts i assertion.sender puts)
    (hread : ∀ k n e made, IsPut P puts k n e →
      Published (chronicle P config r₀ acts) assertion.sender e.correlationId →
      Made (chronicle P config r₀ acts) assertion.sender e.correlationId made →
      ReadsBy P config r₀ acts i k n (made + assertion.timeout.getD (Duration.fromSecs 30)))
    (hsent : ∃ id, Published (chronicle P config r₀ acts) assertion.sender id) :
    ∃ result ∈ outcome.assertions, result.sender = assertion.sender ∧
      result.receiver = receiver ∧ result.expectation = .received ∧ result.passed = true := by
  obtain ⟨result, hresult, hsender, hreceiver', hexpectation, hpassed⟩ :=
    received_iff hstart h hfresh hend hmain hassertion hreceiver
  refine ⟨result, hresult, hsender, hreceiver', hexpectation, hpassed.mpr ⟨hsent, fun id hid => ?_⟩⟩
  have hkept := kept_chronicle hstart h hfresh
  obtain ⟨k, n, e, hput, rfl⟩ := hrelays.put id hid
  obtain ⟨made, hmade⟩ : ∃ made, Made (chronicle P config r₀ acts) assertion.sender e.correlationId
      made := by
    obtain ⟨happening, hmem, made, heffect⟩ := hid
    exact ⟨made, hkept.published happening hmem _ _ _ heffect⟩
  obtain ⟨seen, hseen, hle⟩ := seen_of_relays hS hP hstart h hget hrelays.fronts hput
    (hrelays.once _ hid) (hread k n e made hput hid hmade)
  rw [hname, hkept.seen] at hseen
  exact ⟨made, seen, hmade, hseen, hle⟩

namespace Delivered

variable {bytes : List UInt8}

/-- What the receiver has read when it waits for more. -/
theorem sockets_reading (bytes : List UInt8) :
    sockets 1 (Leak.connecting ++ (sending bytes.length ++ Leak.reading bytes)) = [bytes] := by
  have hlast : ∀ (f : List UInt8 → List UInt8) stream, [stream].modifyLast f = [f stream] :=
    fun f stream => List.modifyLast_concat f stream []
  simp [sockets, RunAct.read, ParticipantAct.read, Leak.connecting, sending, Leak.reading,
    SessionAct.bytes, ReaderAct.bytes, hlast]

/-- The socket holds the id of the event. -/
theorem idsOn_eventBytes : idsOn Reference.platform (eventBytes Reference.platform) = [7] := by
  have hfree : position eventOpen [] = none := by decide
  have hscan : scan (validateXml Reference.platform) (8 * 1024 * 1024)
      (eventBytes Reference.platform) =
      .ok ([positionXml Reference.platform Leak.alice (expecting none) 0 7], []) := by
    have hevent := scan_event Reference.platform_standard Reference.platform_plain hfree
      (length_eventBytes.trans (show 8192 ≤ 8 * 1024 * 1024 by decide)) []
    rwa [List.nil_append, List.append_nil, scan_nil] at hevent
  rw [idsOn_of_scan hscan, List.filterMap_cons, frameId, positionXml,
    inspectEvent_toXml Reference.platform_standard Reference.platform_plain]
  rfl

/-- A server that puts the only event on the socket of the receiver. -/
theorem relays_eventBytes {r₀ : Run} {acts : List RunAct}
    (hbytes : eventBytes Reference.platform = bytes) (hsockets : Fronts (sockets 1 acts) [bytes])
    (hpublished : ∀ id,
      Published (chronicle Reference.platform (expecting none) r₀ acts) "alice" id → id = 7) : Relays Reference.platform (expecting none) r₀ acts 1 "alice" [bytes] where
  fronts := hsockets
  put id hid := by
    obtain rfl := hpublished id hid
    obtain ⟨e, hid, hevent⟩ : ∃ e : PositionEvent, e.correlationId = 7 ∧
        asBytes (e.toXml Reference.platform) = bytes :=
      ⟨positionEvent Leak.alice (expecting none) 0 7, rfl, hbytes⟩
    refine ⟨0, bytes.length, e, ⟨[], bytes, rfl, isWhole_nil, ?_, ?_⟩, hid⟩
    · rw [List.nil_append, hevent]
    · rw [List.nil_append, hevent]
  once id hid := by
    obtain rfl := hpublished id hid
    rw [List.flatMap_singleton, ← hbytes, idsOn_eventBytes]
    decide

end Delivered

/-- The verdict on a receiver that reads the only event as soon as it is written. -/
theorem received_of_relays_delivered :
    ∃ r₀ acts r r' task outcome puts,
      start (Delivered.expecting none) 0 (fun _ => id) {} false = .ok r₀ ∧
      (machine Reference.platform (Delivered.expecting none)).exec r₀ acts = some r ∧
      r.step Reference.platform (Delivered.expecting none) .evaluate = some r' ∧
      r'.main = .returned outcome ∧ r.tasks[1]? = some task ∧
      Relays Reference.platform (Delivered.expecting none) r₀ acts 1 "alice" puts ∧
      ∃ result ∈ outcome.assertions, result.sender = "alice" ∧ result.receiver = "bob" ∧
        result.expectation = .received ∧ result.passed = true := by
  obtain ⟨bytes, hbytes⟩ : ∃ bytes, Delivered.eventBytes Reference.platform = bytes := ⟨_, rfl⟩
  obtain ⟨u, r, r', hu, hnow, hsession, hexpiring, hfresh, hids, hname, hend, hmain⟩ :=
    Delivered.exists_recorded hbytes
  obtain ⟨task, hget, hname⟩ := Option.map_eq_some_iff.mp hname
  obtain ⟨task', hget', hsession⟩ := Option.map_eq_some_iff.mp hsession
  have hstart := Delivered.start_expecting (.inl rfl)
  have hexec := Machine.exec_append hu hexpiring
  have hkept := kept_chronicle hstart hexec hfresh
  have hread := Delivered.sockets_reading bytes
  generalize Leak.connecting ++ (Delivered.sending bytes.length ++ Leak.reading bytes) = before
    at hu hfresh hexec hkept hread
  -- nothing is read while the run ends
  have hall : sockets 1 (before ++ Delivered.expiring) = [bytes] := by
    rw [sockets, List.foldl_append, ← sockets, hread]
    simpa [Delivered.expiring, RunAct.read, ParticipantAct.read, SessionAct.bytes,
      ReaderAct.bytes] using List.modifyLast_concat (fun x => x) bytes []
  -- the only event is the one with the id 7
  have hpublished : ∀ id, Published (chronicle Reference.platform (Delivered.expecting none)
      (spawn (Delivered.expecting none) [0, 0] false) (before ++ Delivered.expiring)) "alice" id ↔
        id = 7 := by
    intro id
    rw [← hids]
    simp only [hkept.sent, Published]
    constructor
    · rintro ⟨e, he, sentAt, heffect⟩
      exact ⟨sentAt, e, he, heffect⟩
    · rintro ⟨sentAt, e, he, heffect⟩
      exact ⟨e, he, sentAt, heffect⟩
  have hrelays := Delivered.relays_eventBytes hbytes (hall ▸ Fronts.refl _)
    fun id hid => (hpublished id).mp hid
  refine ⟨_, _, r, r', task, _, [bytes], hstart, hexec, hend, hmain, hget, hrelays, ?_⟩
  refine received_of_relays Reference.platform_standard Reference.platform_plain hstart hexec hfresh
    hend hmain (List.mem_singleton_self _) (List.mem_singleton_self "bob") hget hname hrelays ?_
    ⟨7, (hpublished 7).mpr rfl⟩
  rintro k n e made ⟨front, stream, hstream, -, hfront, rfl⟩ - -
  have hk : k = 0 ∧ bytes = stream := by
    rw [List.getElem?_singleton, Option.ite_none_right_eq_some] at hstream
    exact ⟨hstream.1, Option.some.inj hstream.2⟩
  obtain ⟨rfl, rfl⟩ := hk
  refine ⟨before, Delivered.expiring, u, task', _, _, _, [], bytes, rfl, hu, ?_, hget', hsession,
    rfl, rfl, hread, rfl, hfront.length_le⟩
  -- the timeout is longer than the run has taken so far
  rw [hnow]
  exact (show 10000000000 ≤ Duration.fromSecs 30 by decide).trans (Nat.le_add_left _ _)

end Run

end TakBench
