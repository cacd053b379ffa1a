import TakBench.Library.Records
import TakBench.Runner.Settlement
import TakBench.Scenario.Outcome

/-!
# The lifecycle stream as lines

`LifecycleEmitter` writes each event of a run as one line of JSON. The names in the events of an
accepted configuration need no escapes, so the stream can be read back from the lines, and nothing
else is in them.

## Main definitions

* `Serde`: how a string is written in JSON
* `LifecycleEvent.toJson`, `emit`, `renderLines`: an event as a line, and a stream as a text
* `LifecycleEvent.read?`, `readLines`: the way back

## Main results

* `readLines_renderLines`: the stream is read back
* `Execution.stream_plain`: the names in the stream of an execution need no escapes
-/

namespace TakBench

/-! ## JSON -/

/-- A printable character that JSON writes as it is. -/
def isPlainJson (c : Char) : Bool :=
  32 ≤ c.toNat && c.toNat < 127 && c ≠ '"' && c ≠ '\\'

/-- How a string is written in JSON. -/
structure Serde where
  string : List Char → List Char
  /-- a string without special characters stands between quotes -/
  string_plain (text : List Char) (hplain : ∀ c ∈ text, isPlainJson c = true) :
    string text = Records.quote text

def DisconnectReason.name : DisconnectReason → String
  | .runDeadline => "run_deadline"
  | .externalStop => "external_stop"
  | .peerClosed => "peer_closed"
  | .readFailed => "read_failed"
  | .writeFailed => "write_failed"
  | .parseFailed => "parse_failed"
  | .connectFailed => "connect_failed"
  | .readinessTimeout => "readiness_timeout"
  | .reconnectExhausted => "reconnect_exhausted"

def CompletionStatus.name : CompletionStatus → String
  | .passed => "passed"
  | .failed => "failed"
  | .aborted => "aborted"

namespace LifecycleEvent

/-- The members of an event in JSON: its kind, as a tag, and its fields. -/
def fields : LifecycleEvent → List (String × String)
  | .participantConnected participant =>
    [("event", "participant_connected"), ("participant", participant)]
  | .participantReady participant =>
    [("event", "participant_ready"), ("participant", participant)]
  | .participantDisconnected participant reason =>
    [("event", "participant_disconnected"), ("participant", participant),
      ("reason", reason.name)]
  | .runCompleted status => [("event", "run_completed"), ("status", status.name)]

/-- The record of an event. -/
def record (event : LifecycleEvent) : List Records.Member :=
  event.fields.map fun field => (field.1.toList, field.2.toList)

/-- `serde_json::to_string` -/
def toJson (S : Serde) (event : LifecycleEvent) : List Char := Records.object S.string event.record

end LifecycleEvent

/-- `LifecycleEmitter::emit`: an emitter that is disabled writes nothing. -/
def emit (S : Serde) (enabled : Bool) (event : LifecycleEvent) : List (List Char) :=
  if enabled then [event.toJson S] else []

/-- What an emitter writes for a stream: each line ends with a newline. -/
def renderLines (S : Serde) (enabled : Bool) (events : List LifecycleEvent) : List Char :=
  Records.unlines (events.flatMap (emit S enabled))

/-! ## Reading back -/

def DisconnectReason.read? (name : String) : Option DisconnectReason :=
  [.runDeadline, .externalStop, .peerClosed, .readFailed, .writeFailed, .parseFailed,
    .connectFailed, .readinessTimeout, .reconnectExhausted].find? (·.name = name)

def CompletionStatus.read? (name : String) : Option CompletionStatus :=
  [.passed, .failed, .aborted].find? (·.name = name)

/-- The event with the given members. -/
def LifecycleEvent.ofFields : List (String × String) → Option LifecycleEvent
  | [("event", kind), (_, text)] =>
    if kind = "participant_connected" then some (.participantConnected text)
    else if kind = "participant_ready" then some (.participantReady text)
    else if kind = "run_completed" then (CompletionStatus.read? text).map .runCompleted
    else none
  | [("event", "participant_disconnected"), (_, text), (_, reason)] =>
    (DisconnectReason.read? reason).map (.participantDisconnected text)
  | _ => none

/-- The event of a line. -/
def LifecycleEvent.read? (line : List Char) : Option LifecycleEvent :=
  (Records.readObject line).bind fun record =>
    ofFields (record.map fun m => (String.ofList m.1, String.ofList m.2))

/-- The events of a text of lines. -/
def readLines (text : List Char) : Option (List LifecycleEvent) :=
  (Records.lines text).mapM LifecycleEvent.read?

variable {S : Serde}

theorem DisconnectReason.read?_name (reason : DisconnectReason) :
    read? reason.name = some reason := by
  cases reason <;> decide

theorem CompletionStatus.read?_name (status : CompletionStatus) :
    read? status.name = some status := by
  cases status <;> decide

namespace LifecycleEvent

variable {event : LifecycleEvent}

theorem ofFields_fields (event : LifecycleEvent) : ofFields event.fields = some event := by
  cases event with
  | participantConnected participant => rfl
  | participantReady participant => rfl
  | participantDisconnected participant reason =>
    show (DisconnectReason.read? reason.name).map (participantDisconnected participant) = _
    rw [DisconnectReason.read?_name, Option.map_some]
  | runCompleted status =>
    show (CompletionStatus.read? status.name).map runCompleted = _
    rw [CompletionStatus.read?_name, Option.map_some]

/-- The name in an event needs no escapes. -/
def IsPlain (event : LifecycleEvent) : Prop :=
  ∀ id ∈ event.participant?, ∀ c ∈ id.toList, isPlainJson c = true

/-- No text of a plain event needs an escape. -/
theorem isPlainJson_record (hplain : event.IsPlain) : ∀ m ∈ event.record,
    (∀ c ∈ m.1, isPlainJson c = true) ∧ ∀ c ∈ m.2, isPlainJson c = true := by
  have hfixed : ∀ text ∈ ["event", "participant_connected", "participant_ready",
      "participant_disconnected", "run_completed", "participant", "reason", "status"],
      ∀ c ∈ text.toList, isPlainJson c = true := by
    intro text htext
    rw [← List.all_eq_true]
    revert text
    decide
  have hreason : ∀ reason : DisconnectReason, ∀ c ∈ reason.name.toList,
      isPlainJson c = true := by
    intro reason
    rw [← List.all_eq_true]
    cases reason <;> decide
  have hstatus : ∀ status : CompletionStatus, ∀ c ∈ status.name.toList,
      isPlainJson c = true := by
    intro status
    rw [← List.all_eq_true]
    cases status <;> decide
  cases event with
  | participantConnected participant | participantReady participant =>
    have hname := hplain participant rfl
    simp only [record, fields, List.map_cons, List.map_nil, List.forall_mem_cons]
    exact ⟨⟨hfixed _ (by simp), hfixed _ (by simp)⟩, ⟨hfixed _ (by simp), hname⟩, by simp⟩
  | participantDisconnected participant reason =>
    have hname := hplain participant rfl
    simp only [record, fields, List.map_cons, List.map_nil, List.forall_mem_cons]
    exact ⟨⟨hfixed _ (by simp), hfixed _ (by simp)⟩, ⟨hfixed _ (by simp), hname⟩,
      ⟨hfixed _ (by simp), hreason reason⟩, by simp⟩
  | runCompleted status =>
    simp only [record, fields, List.map_cons, List.map_nil, List.forall_mem_cons]
    exact ⟨⟨hfixed _ (by simp), hfixed _ (by simp)⟩, ⟨hfixed _ (by simp), hstatus status⟩,
      by simp⟩

/-- A plain event is written without escapes. -/
theorem toJson_eq (hplain : event.IsPlain) :
    event.toJson S = Records.object Records.quote event.record :=
  Records.object_congr fun m hm =>
    ⟨S.string_plain _ (isPlainJson_record hplain m hm).1,
      S.string_plain _ (isPlainJson_record hplain m hm).2⟩

/-- A plain event is one line of printable characters. -/
theorem isPrintable_toJson (hplain : event.IsPlain) :
    ∀ c ∈ event.toJson S, 32 ≤ c.toNat ∧ c.toNat < 127 := by
  rw [toJson_eq hplain]
  have hpunctuation : ∀ c ∈ ['{', '}', '"', ':', ','], 32 ≤ c.toNat ∧ c.toNat < 127 := by
    simp only [List.forall_mem_cons]
    exact ⟨by decide, by decide, by decide, by decide, by decide, by simp⟩
  refine Records.forall_mem_object hpunctuation fun m hm => ?_
  obtain ⟨hname, htext⟩ := isPlainJson_record hplain m hm
  have hprintable : ∀ c : Char, isPlainJson c = true → 32 ≤ c.toNat ∧ c.toNat < 127 := by
    intro c hc
    simp only [isPlainJson, Bool.and_eq_true, decide_eq_true_eq] at hc
    exact hc.1.1
  exact ⟨fun c hc => hprintable c (hname c hc), fun c hc => hprintable c (htext c hc)⟩

theorem newline_notMem_toJson (hplain : event.IsPlain) : '\n' ∉ event.toJson S := by
  intro hnewline
  exact absurd (isPrintable_toJson hplain _ hnewline).1 (by decide)

/-- **A line is read back.** -/
theorem read?_toJson (hplain : event.IsPlain) : read? (event.toJson S) = some event := by
  have hquote : ∀ c : Char, isPlainJson c = true → '"' ≠ c := by
    rintro c hc rfl
    cases hc
  have hunquoted : Records.Unquoted event.record := by
    intro m hm
    obtain ⟨hname, htext⟩ := isPlainJson_record hplain m hm
    exact ⟨fun h => hquote _ (hname _ h) rfl, fun h => hquote _ (htext _ h) rfl⟩
  have hne : event.record ≠ [] := by
    cases event <;> simp [record, fields]
  have hfields : (event.record.map fun m => (String.ofList m.1, String.ofList m.2)) =
      event.fields := by
    simp [record, List.map_map, Function.comp_def]
  rw [read?, toJson_eq hplain, Records.readObject_object hne hunquoted, Option.bind_some, hfields,
    ofFields_fields]

end LifecycleEvent

/-- A line of the stream. -/
example : (LifecycleEvent.participantDisconnected "a2" .peerClosed).toJson
    ⟨Records.quote, fun _ _ => rfl⟩ = ("\x7b\"event\":\"participant_disconnected\"," ++
      "\"participant\":\"a2\",\"reason\":\"peer_closed\"\x7d").toList := by decide

/-- **A stream is read back** from its lines. -/
theorem readLines_renderLines {events : List LifecycleEvent}
    (hplain : ∀ event ∈ events, event.IsPlain) :
    readLines (renderLines S true events) = some events := by
  have hlines : events.flatMap (emit S true) = events.map (·.toJson S) :=
    List.flatMap_pure_eq_map (LifecycleEvent.toJson S) events
  have hnewline : ∀ line ∈ events.map (·.toJson S), '\n' ∉ line := by
    intro line hline
    obtain ⟨event, hevent, rfl⟩ := List.mem_map.mp hline
    exact LifecycleEvent.newline_notMem_toJson (hplain event hevent)
  rw [readLines, renderLines, hlines, Records.lines_unlines hnewline]
  clear hlines hnewline
  induction events with
  | nil => rfl
  | cons event events ih =>
    obtain ⟨hevent, hevents⟩ := List.forall_mem_cons.mp hplain
    rw [List.map_cons, List.mapM_cons, LifecycleEvent.read?_toJson hevent, ih hevents]
    rfl

/-! ## The stream of an execution -/

/-- The events are about participants of the configuration, and those about one participant are
sessions, of which the last may be open. -/
structure IsStory (config : AppConfig) (events : List LifecycleEvent) : Prop where
  named : ∀ event ∈ events, ∃ participant ∈ participants config,
    event.participant? = some participant.id
  sessions : ∀ id, ∃ (reasons : List DisconnectReason) (opened : List LifecycleEvent),
    about id events = reasons.flatMap (session id) ++ opened ∧
      opened <+: [.participantConnected id, .participantReady id]

/-- A name that is safe in a path needs no escapes. -/
theorem isPlainJson_of_isSafe {id : String} (hsafe : isSafeParticipantId id = true) :
    ∀ c ∈ id.toList, isPlainJson c = true := by
  simp only [isSafeParticipantId, Bool.and_eq_true, List.all_eq_true] at hsafe
  intro c hc
  have hchar := hsafe.1.1.2 c hc
  have hquote : c ≠ '"' := by
    rintro rfl
    cases hchar
  have hbackslash : c ≠ '\\' := by
    rintro rfl
    cases hchar
  have hletter : c.isAlphanum = (decide ('A'.val ≤ c.val ∧ c.val ≤ 'Z'.val) ||
      decide ('a'.val ≤ c.val) && decide (c.val ≤ 'z'.val) ||
      decide ('0'.val ≤ c.val) && decide (c.val ≤ '9'.val)) := rfl
  have hrange : 32 ≤ c.toNat ∧ c.toNat < 127 := by
    simp only [hletter, Bool.or_eq_true, decide_eq_true_eq, Bool.and_eq_true,
      UInt32.le_iff_toNat_le] at hchar
    rw [Char.toNat]
    rcases hchar with ((((⟨h, h'⟩ | ⟨h, h'⟩) | ⟨h, h'⟩) | rfl) | rfl) | rfl
    · exact ⟨le_trans (by decide) h, lt_of_le_of_lt h' (by decide)⟩
    · exact ⟨le_trans (by decide) h, lt_of_le_of_lt h' (by decide)⟩
    · exact ⟨le_trans (by decide) h, lt_of_le_of_lt h' (by decide)⟩
    all_goals decide
  simp [isPlainJson, hquote, hbackslash, hrange.1, hrange.2]

namespace Execution

variable {T : Telemetry} {P : Platform} {config : AppConfig} {e e' e₀ : Execution}
  {act : ExecutionAct} {acts : List ExecutionAct}

/-- The tasks of the scenario are those of participants of the configuration. -/
def Configured (config : AppConfig) (e : Execution) : Prop :=
  ∀ run, e.scenario = .running run → ∀ task ∈ run.tasks, task.participant ∈ participants config

theorem Configured.step (he : e.Configured config) (h : e.step T P config act = some e') :
    e'.Configured config := by
  intro run' hs task htask
  cases scenario_cases h with
  | steps run run₁ a hs₀ hstep hs' hmain =>
    obtain rfl := Scenario.running.inj (hs.symm.trans hs')
    exact Run.configured_invariant.run_step (he run hs₀) hstep task htask
  | elapses error world d hs₀ hs' hmain => cases hs.symm.trans hs'
  | reports outcome threshold loading metrics hmain hmetrics hs' hmain' =>
    rw [hs] at hs'
    cases hs₀ : e.scenario with
    | failed error world =>
      rw [hs₀] at hs'
      cases hs'
    | running run =>
      rw [hs₀] at hs'
      obtain rfl := Scenario.running.inj hs'
      exact he run hs₀ task htask
  | same hs' hmain => exact he run' (hs'.symm.trans hs) task htask

theorem configured_start {started : ℤ} {shuffle : ℕ → List Duration → List Duration}
    {options : SafetyOptions} {stop : Bool}
    (hstart : start config started shuffle options stop = .ok e₀) :
    e₀.Configured config := by
  obtain ⟨-, scenario, rfl, hscenario⟩ := exists_of_start hstart
  intro run hs task htask
  rcases hscenario with ⟨error, rfl⟩ | ⟨run', hrun, rfl⟩
  · cases hs
  · obtain rfl := Scenario.running.inj hs
    obtain ⟨-, delays, rfl⟩ := Run.exists_of_mem_start hrun
    exact (Run.exists_of_mem_spawn htask).1

theorem announces_of_exec {started : ℤ} {shuffle : ℕ → List Duration → List Duration}
    {options : SafetyOptions} {stop : Bool}
    (hstart : start config started shuffle options stop = .ok e₀)
    (h : (machine T P config).exec e₀ acts = some e) : e.Announces config ∧ e.Concludes config :=
  Machine.exec_invariant (m := machine T P config)
    (I := fun e => e.Announces config ∧ e.Concludes config)
    (fun _ _ _ hs hstep => ⟨announces_step hs.2 hs.1 hstep, hs.2.step hstep⟩)
    (announces_start hstart) h

theorem accepted_of_start {started : ℤ} {shuffle : ℕ → List Duration → List Duration}
    {options : SafetyOptions} {stop : Bool}
    (hstart : start config started shuffle options stop = .ok e₀) :
    validateWithOptions config options = .ok () :=
  (exists_of_start hstart).1

/-- **The stream of an execution** is a story of its participants, and the announcement of the
end. -/
theorem stream_eq {started : ℤ} {shuffle : ℕ → List Duration → List Duration}
    {options : SafetyOptions} {stop : Bool}
    (hstart : start config started shuffle options stop = .ok e₀)
    (h : (machine T P config).exec e₀ acts = some e) :
    ∃ events, e.stream = events ++ e.ended ∧ IsStory config events := by
  have hconfigured : e.Configured config := Machine.exec_invariant (m := machine T P config)
    (fun _ _ _ he hstep => he.step hstep) (configured_start hstart) h
  obtain ⟨events, tasks, hstream, hstreams, hlinked, hscenario⟩ :=
    stream_of_announces (announces_of_exec hstart h).1
  refine ⟨events, hstream, ⟨fun event hevent => ?_, fun id => ?_⟩⟩
  · obtain ⟨task, htask, hname⟩ := hstreams.named event hevent
    obtain ⟨run, hs, hmem⟩ := hscenario task htask
    exact ⟨task.participant, hconfigured run hs task hmem, hname⟩
  · rcases about_of_streams hstreams id with hnone | ⟨task, htask, rfl, hemitted⟩
    · exact ⟨[], [], hnone, List.nil_prefix⟩
    · obtain ⟨link, hlog, -⟩ := hlinked task htask
      obtain ⟨reasons, hreasons⟩ := Link.sessions hlog
      exact ⟨reasons, _, hemitted.trans hreasons, link.announced_prefix⟩

/-- **The names in the stream** need no escapes. -/
theorem stream_plain {started : ℤ} {shuffle : ℕ → List Duration → List Duration}
    {options : SafetyOptions} {stop : Bool}
    (hstart : start config started shuffle options stop = .ok e₀)
    (h : (machine T P config).exec e₀ acts = some e) : ∀ event ∈ e.stream, event.IsPlain := by
  have hsafe := (accepted_of_validateWithOptions (accepted_of_start hstart)).isSafe_ids
  obtain ⟨events, hstream, hstory⟩ := stream_eq hstart h
  intro event hevent id hid
  rw [hstream, List.mem_append] at hevent
  rcases hevent with hevent | hevent
  · obtain ⟨participant, hmem, hname⟩ := hstory.named event hevent
    obtain rfl := Option.some.inj (hname.symm.trans hid)
    exact isPlainJson_of_isSafe (hsafe participant hmem)
  · -- the end of the run is about nobody
    rw [ended] at hevent
    split at hevent
    · cases List.mem_singleton.mp hevent ▸ hid
    · cases hevent

end Execution

end TakBench
