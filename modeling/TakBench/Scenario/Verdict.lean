import TakBench.Library.Enumeration
import TakBench.Scenario.Run

/-!
# The verdicts on a ledger

`evaluate_routing` walks through the hash maps of the ledger. What it returns depends only on what
the maps say: the verdict on an expected receiver asks whether each event of the sender was seen
within the timeout, the verdict on a forbidden receiver whether one was seen at all.

## Main definitions

* `LedgerView`: what a ledger says
* `LedgerView.received`, `LedgerView.notReceived`: the verdicts, over sets of events

## Main results

* `CorrelationLedger.evaluateRouting_spec`: the verdicts of a ledger are those of what it says
* `CorrelationLedger.receipt_keeps_iff`: when a further receipt spoils no delivery
-/

namespace TakBench

/-- What a ledger says, whatever the order of its maps. -/
structure LedgerView where
  sent : Uuid → Option (String × Instant)
  seen : String → Uuid → Option Instant

namespace LedgerView

variable (v : LedgerView)

/-- The events of a sender. -/
def sentBy (sender : String) : Set Uuid := {id | ∃ sentAt, v.sent id = some (sender, sentAt)}

/-- The events that a receiver has seen. -/
def seenBy (receiver : String) : Set Uuid := {id | ∃ seenAt, v.seen receiver id = some seenAt}

/-- The events that a receiver has seen no later than `timeout` after they were sent. -/
def inTime (receiver : String) (timeout : Duration) : Set Uuid :=
  {id | ∃ sender sentAt seenAt, v.sent id = some (sender, sentAt) ∧
    v.seen receiver id = some seenAt ∧ seenAt ≤ sentAt + timeout}

/-- The events of an assertion that a receiver has seen in time. -/
def delivered (assertion : RoutingAssertion) (receiver : String) : Set Uuid :=
  v.sentBy assertion.sender ∩
    v.inTime receiver (assertion.timeout.getD (Duration.fromSecs 30))

open Classical in
/-- An expected receiver has seen all events of the sender in time, and there is one. -/
noncomputable def received (assertion : RoutingAssertion) (receiver : String) :
    AssertionResult where
  sender := assertion.sender
  receiver
  expectation := .received
  passed := decide ((v.sentBy assertion.sender).Nonempty ∧
    (v.delivered assertion receiver).ncard = (v.sentBy assertion.sender).ncard)
  receivedCount := (v.delivered assertion receiver).ncard

open Classical in
/-- A forbidden receiver has seen no event of the sender, and there is one. -/
noncomputable def notReceived (assertion : RoutingAssertion) (receiver : String) :
    AssertionResult where
  sender := assertion.sender
  receiver
  expectation := .notReceived
  passed := decide ((v.sentBy assertion.sender).Nonempty ∧
    (v.sentBy assertion.sender ∩ v.seenBy receiver).ncard = 0)
  receivedCount := (v.sentBy assertion.sender ∩ v.seenBy receiver).ncard

variable {v} {assertion : RoutingAssertion} {receiver : String}

open Classical in
theorem received_passed : (v.received assertion receiver).passed = true ↔
    (v.sentBy assertion.sender).Nonempty ∧
      (v.delivered assertion receiver).ncard = (v.sentBy assertion.sender).ncard :=
  decide_eq_true_iff

open Classical in
theorem notReceived_passed : (v.notReceived assertion receiver).passed = true ↔
    (v.sentBy assertion.sender).Nonempty ∧
      (v.sentBy assertion.sender ∩ v.seenBy receiver).ncard = 0 :=
  decide_eq_true_iff

end LedgerView

namespace CorrelationLedger

variable (state : CorrelationLedger)

/-- What the ledger says. -/
def view : LedgerView where
  sent := state.sent.lookup
  seen receiver id := state.seen.lookup (receiver, id)

variable {state} {sender : String} {id : Uuid}

theorem mem_correlations {sentAt : Instant} (h : state.sent.lookup id = some (sender, sentAt)) :
    id ∈ state.correlations sender := by
  have hentry := AList.mem_lookup_iff.mp (Option.mem_def.mpr h)
  exact List.mem_map.mpr ⟨_, List.mem_filter.mpr ⟨hentry, decide_eq_true rfl⟩, rfl⟩

theorem mem_correlations_iff :
    id ∈ state.correlations sender ↔ ∃ sentAt, state.sent.lookup id = some (sender, sentAt) := by
  constructor
  · intro h
    obtain ⟨⟨id', name, sentAt⟩, hmem, rfl⟩ := List.mem_map.mp h
    obtain ⟨hentry, hname⟩ := List.mem_filter.mp hmem
    obtain rfl : name = sender := of_decide_eq_true hname
    exact ⟨sentAt, AList.mem_lookup_iff.mpr hentry⟩
  · rintro ⟨sentAt, hlookup⟩
    exact mem_correlations hlookup

/-- **The ids of a sender are enumerated**: a map holds each id once. -/
theorem enumerates_correlations (state : CorrelationLedger) (sender : String) :
    Enumerates (state.correlations sender) (state.view.sentBy sender) where
  nodup := by
    have hkeys : (state.sent.entries.map (·.1)).Nodup := state.sent.nodupKeys
    exact hkeys.sublist (List.filter_sublist.map _)
  mem_iff _ := mem_correlations_iff

/-- An event that is sent is seen in time if it is seen before the timeout is over. -/
theorem isSeenWithin_iff {receiver name : String} {timeout : Duration} {sentAt : Instant}
    (hsent : state.sent.lookup id = some (name, sentAt)) :
    state.isSeenWithin receiver timeout id = true ↔
      ∃ seen, state.seen.lookup (receiver, id) = some seen ∧ seen ≤ sentAt + timeout := by
  rw [isSeenWithin, hsent]
  cases state.seen.lookup (receiver, id) with
  | none => simp
  | some seen => simp [Nat.add_comm]

/-- The test of a receipt is that of the view. -/
theorem isSeenWithin_iff_mem {receiver : String} {timeout : Duration}
    (hid : id ∈ state.view.sentBy sender) :
    state.isSeenWithin receiver timeout id = true ↔ id ∈ state.view.inTime receiver timeout := by
  obtain ⟨sentAt, hsent⟩ := hid
  rw [isSeenWithin_iff hsent]
  constructor
  · rintro ⟨seen, hseen, hle⟩
    exact ⟨sender, sentAt, seen, hsent, hseen, hle⟩
  · rintro ⟨name, sentAt', seen, hsent', hseen, hle⟩
    obtain ⟨-, rfl⟩ := Prod.mk.inj (Option.some.inj (hsent.symm.trans hsent'))
    exact ⟨seen, hseen, hle⟩

theorem isSeen_iff_mem {receiver : String} :
    state.isSeen receiver id = true ↔ id ∈ state.view.seenBy receiver :=
  Option.isSome_iff_exists

theorem passed_expect_iff {assertion : RoutingAssertion} {receiver : String} :
    (state.expect assertion receiver).passed = true ↔
      (∃ id, id ∈ state.correlations assertion.sender) ∧
        ∀ id ∈ state.correlations assertion.sender,
          state.isSeenWithin receiver (assertion.timeout.getD (Duration.fromSecs 30)) id =
            true := by
  rw [expect, Bool.and_eq_true, decide_eq_true_eq, List.countP_eq_length, Bool.not_eq_true',
    List.isEmpty_eq_false_iff_exists_mem]

/-- A verdict that passed: the receiver has seen none of the events that are known to be sent. -/
theorem isSeen_of_passed {assertions : List RoutingAssertion} {result : AssertionResult}
    (hresult : result ∈ state.evaluateRouting assertions)
    (hexpect : result.expectation = .notReceived) (hpassed : result.passed = true)
    (hid : id ∈ state.correlations result.sender) : state.isSeen result.receiver id = false := by
  obtain ⟨assertion, -, hmem⟩ := List.mem_flatMap.mp hresult
  rcases List.mem_append.mp hmem with hmem | hmem
  · obtain ⟨receiver, -, rfl⟩ := List.mem_map.mp hmem
    cases hexpect
  · obtain ⟨receiver, -, rfl⟩ := List.mem_map.mp hmem
    simp only [forbid, Bool.and_eq_true, decide_eq_true_eq] at hpassed
    exact Bool.not_eq_true _ |>.mp (List.countP_eq_zero.mp hpassed.2 id hid)

/-! ## The verdicts of a view -/

/-- The verdict on an expected receiver is that of the view. -/
theorem expect_eq (assertion : RoutingAssertion) (receiver : String) :
    state.expect assertion receiver = state.view.received assertion receiver := by
  have hids := state.enumerates_correlations assertion.sender
  have hcount : (state.correlations assertion.sender).countP (state.isSeenWithin receiver
      (assertion.timeout.getD (Duration.fromSecs 30))) =
      (state.view.delivered assertion receiver).ncard :=
    hids.countP_eq fun _ hid => isSeenWithin_iff_mem hid
  have hpassed : (state.expect assertion receiver).passed = true ↔
      (state.view.received assertion receiver).passed = true := by
    rw [LedgerView.received_passed, expect, Bool.and_eq_true, Bool.not_eq_true',
      decide_eq_true_eq, hcount, hids.nonempty_iff, hids.ncard_eq]
  exact AssertionResult.mk.injEq .. |>.mpr ⟨rfl, rfl, rfl, Bool.eq_iff_iff.mpr hpassed, hcount⟩

/-- The verdict on a forbidden receiver is that of the view. -/
theorem forbid_eq (assertion : RoutingAssertion) (receiver : String) :
    state.forbid assertion receiver = state.view.notReceived assertion receiver := by
  have hids := state.enumerates_correlations assertion.sender
  have hcount : (state.correlations assertion.sender).countP (state.isSeen receiver) =
      (state.view.sentBy assertion.sender ∩ state.view.seenBy receiver).ncard :=
    hids.countP_eq fun _ _ => isSeen_iff_mem
  have hpassed : (state.forbid assertion receiver).passed = true ↔
      (state.view.notReceived assertion receiver).passed = true := by
    rw [LedgerView.notReceived_passed, forbid, Bool.and_eq_true, Bool.not_eq_true',
      decide_eq_true_eq, hcount, hids.nonempty_iff]
  exact AssertionResult.mk.injEq .. |>.mpr ⟨rfl, rfl, rfl, Bool.eq_iff_iff.mpr hpassed, hcount⟩

/-- When an expected receiver passes. -/
theorem passed_received_iff {assertion : RoutingAssertion} {receiver : String} :
    (state.view.received assertion receiver).passed = true ↔
      (state.view.sentBy assertion.sender).Nonempty ∧ state.view.sentBy assertion.sender ⊆
        state.view.inTime receiver (assertion.timeout.getD (Duration.fromSecs 30)) := by
  have hids := state.enumerates_correlations assertion.sender
  rw [← expect_eq, passed_expect_iff, hids.nonempty_iff, List.isEmpty_eq_false_iff_exists_mem]
  refine and_congr_right fun _ => forall_congr' fun id => ?_
  rw [hids.mem_iff]
  exact forall_congr' fun hid => isSeenWithin_iff_mem hid

/-- When a forbidden receiver passes. -/
theorem passed_notReceived_iff {assertion : RoutingAssertion} {receiver : String} :
    (state.view.notReceived assertion receiver).passed = true ↔
      (state.view.sentBy assertion.sender).Nonempty ∧
        ∀ id ∈ state.view.sentBy assertion.sender, id ∉ state.view.seenBy receiver := by
  have hids := state.enumerates_correlations assertion.sender
  rw [← forbid_eq, forbid, Bool.and_eq_true, decide_eq_true_eq, Bool.not_eq_true',
    hids.nonempty_iff, hids.countP_eq_zero_iff fun _ _ => isSeen_iff_mem]

/-! ## Two ledgers side by side -/

/-- The places of the results: an assertion, what it expects, and a receiver. -/
def places (assertions : List RoutingAssertion) :
    List (RoutingAssertion × RoutingExpectation × String) :=
  assertions.flatMap fun assertion =>
    assertion.receivers.map (assertion, .received, ·) ++
      assertion.forbiddenReceivers.map (assertion, .notReceived, ·)

/-- The result at a place. -/
def verdict (state : CorrelationLedger) :
    RoutingAssertion × RoutingExpectation × String → AssertionResult
  | (assertion, .received, receiver) => state.expect assertion receiver
  | (assertion, .notReceived, receiver) => state.forbid assertion receiver

theorem evaluateRouting_eq_map (assertions : List RoutingAssertion) :
    state.evaluateRouting assertions = (places assertions).map state.verdict := by
  simp only [evaluateRouting, places, List.map_flatMap, List.map_append, List.map_map]
  rfl

/-- The results of two ledgers are related when those at each place are. -/
theorem forall₂_evaluateRouting {state' : CorrelationLedger} {assertions : List RoutingAssertion}
    {R : AssertionResult → AssertionResult → Prop} :
    List.Forall₂ R (state.evaluateRouting assertions) (state'.evaluateRouting assertions) ↔
      ∀ assertion ∈ assertions,
        (∀ receiver ∈ assertion.receivers,
          R (state.expect assertion receiver) (state'.expect assertion receiver)) ∧
        ∀ receiver ∈ assertion.forbiddenReceivers,
          R (state.forbid assertion receiver) (state'.forbid assertion receiver) := by
  rw [evaluateRouting_eq_map, evaluateRouting_eq_map, List.forall₂_map_left_iff,
    List.forall₂_map_right_iff, List.forall₂_same]
  constructor
  · intro h assertion hassertion
    refine ⟨fun receiver hreceiver => h (assertion, .received, receiver) ?_,
      fun receiver hreceiver => h (assertion, .notReceived, receiver) ?_⟩
    · exact List.mem_flatMap.mpr ⟨assertion, hassertion,
        List.mem_append_left _ (List.mem_map_of_mem hreceiver)⟩
    · exact List.mem_flatMap.mpr ⟨assertion, hassertion,
        List.mem_append_right _ (List.mem_map_of_mem hreceiver)⟩
  · intro h place hplace
    obtain ⟨assertion, hassertion, hplace⟩ := List.mem_flatMap.mp hplace
    rcases List.mem_append.mp hplace with hplace | hplace
    · obtain ⟨receiver, hreceiver, rfl⟩ := List.mem_map.mp hplace
      exact (h assertion hassertion).1 receiver hreceiver
    · obtain ⟨receiver, hreceiver, rfl⟩ := List.mem_map.mp hplace
      exact (h assertion hassertion).2 receiver hreceiver

/-- The ledger after a receipt. -/
def see (state : CorrelationLedger) (receiver : String) (id : Uuid) (seenAt : Instant) :
    CorrelationLedger :=
  { state with seen := state.seen.insert (receiver, id) seenAt }

section See

variable {receiver receiver' : String} {id' : Uuid} {seenAt : Instant} {timeout : Duration}

theorem sentBy_see : (state.see receiver id seenAt).view.sentBy = state.view.sentBy := rfl

/-- A receipt is the time at which the receiver has seen the event last. -/
theorem seen_see : (state.see receiver id seenAt).view.seen receiver' id' =
    if (receiver', id') = (receiver, id) then some seenAt
    else state.view.seen receiver' id' := by
  rw [view, see]
  split_ifs with h
  · obtain ⟨rfl, rfl⟩ := Prod.mk.inj h
    exact AList.lookup_insert _
  · exact AList.lookup_insert_ne h

theorem seenBy_subset_see :
    state.view.seenBy receiver' ⊆ (state.see receiver id seenAt).view.seenBy receiver' := by
  rintro id' ⟨seen, hseen⟩
  rw [LedgerView.seenBy, Set.mem_ofPred_eq, seen_see]
  split_ifs
  · exact ⟨seenAt, rfl⟩
  · exact ⟨seen, hseen⟩

/-- Other receipts stay in time. -/
theorem mem_inTime_see_of_ne (h : (receiver', id') ≠ (receiver, id)) :
    id' ∈ (state.see receiver id seenAt).view.inTime receiver' timeout ↔
      id' ∈ state.view.inTime receiver' timeout := by
  simp only [LedgerView.inTime, Set.mem_ofPred_eq, seen_see, if_neg h]
  rfl

/-- The receipt itself is in time if it does not come after the timeout. -/
theorem mem_inTime_see {sentAt : Instant} (hsent : state.sent.lookup id = some (sender, sentAt)) :
    id ∈ (state.see receiver id seenAt).view.inTime receiver timeout ↔
      seenAt ≤ sentAt + timeout := by
  simp only [LedgerView.inTime, Set.mem_ofPred_eq, seen_see, if_true]
  constructor
  · rintro ⟨name, sentAt', seen, hsent', hseen, hle⟩
    obtain ⟨-, rfl⟩ := Prod.mk.inj (Option.some.inj (hsent.symm.trans hsent'))
    exact Option.some.inj hseen ▸ hle
  · exact fun hle => ⟨sender, sentAt, seenAt, hsent, rfl, hle⟩

end See

/-! ## The specification of the verdicts -/

/-- A new receipt does not help a forbidden receiver, and does not harm an expected one. -/
structure Monotone (before after : AssertionResult) : Prop where
  sender : after.sender = before.sender
  receiver : after.receiver = before.receiver
  expectation : after.expectation = before.expectation
  received : before.expectation = .received → before.passed = true → after.passed = true
  notReceived : before.expectation = .notReceived → after.passed = true → before.passed = true

theorem view_eq_of_perm {other : CorrelationLedger}
    (hsent : other.sent.entries.Perm state.sent.entries)
    (hseen : other.seen.entries.Perm state.seen.entries) : other.view = state.view :=
  LedgerView.mk.injEq .. |>.mpr ⟨funext fun _ => AList.perm_lookup hsent,
    funext fun _ => funext fun _ => AList.perm_lookup hseen⟩

theorem evaluateRouting_eq (state : CorrelationLedger) (assertions : List RoutingAssertion) :
    state.evaluateRouting assertions = assertions.flatMap fun assertion =>
      assertion.receivers.map (state.view.received assertion) ++
        assertion.forbiddenReceivers.map (state.view.notReceived assertion) := by
  have hexpect : state.expect = state.view.received :=
    funext fun assertion => funext fun receiver => expect_eq assertion receiver
  have hforbid : state.forbid = state.view.notReceived :=
    funext fun assertion => funext fun receiver => forbid_eq assertion receiver
  rw [evaluateRouting, hexpect, hforbid]

/-- A sender cannot both reach and not reach a receiver. -/
theorem not_both_passed {assertions : List RoutingAssertion} {result result' : AssertionResult}
    (hresult : result ∈ state.evaluateRouting assertions)
    (hresult' : result' ∈ state.evaluateRouting assertions)
    (hexpect : result.expectation = .received) (hexpect' : result'.expectation = .notReceived)
    (hsender : result.sender = result'.sender) (hreceiver : result.receiver = result'.receiver) :
    ¬ (result.passed = true ∧ result'.passed = true) := by
  rintro ⟨hpassed, hpassed'⟩
  rw [evaluateRouting_eq] at hresult
  obtain ⟨assertion, -, hmem⟩ := List.mem_flatMap.mp hresult
  rcases List.mem_append.mp hmem with hmem | hmem
  · obtain ⟨receiver, -, rfl⟩ := List.mem_map.mp hmem
    obtain ⟨⟨id, hid⟩, hsubset⟩ := passed_received_iff.mp hpassed
    -- an event that came in time was seen
    obtain ⟨-, -, seenAt, -, hseen, -⟩ := hsubset hid
    have hid' : id ∈ state.correlations result'.sender := by
      rw [← hsender]
      exact mem_correlations_iff.mpr hid
    have hunseen : state.isSeen receiver id = false :=
      (congrArg (state.isSeen · id) hreceiver).trans
        (isSeen_of_passed hresult' hexpect' hpassed' hid')
    cases hunseen.symm.trans (isSeen_iff_mem.mpr ⟨seenAt, hseen⟩)
  · obtain ⟨receiver, -, rfl⟩ := List.mem_map.mp hmem
    cases hexpect

/-- A new receipt changes no verdict for the better of a forbidden receiver, and none for the
worse of an expected one. -/
theorem monotone_see {receiver : String} {seenAt : Instant} (hnew : (receiver, id) ∉ state.seen)
    (assertions : List RoutingAssertion) :
    List.Forall₂ Monotone (state.evaluateRouting assertions)
      ((state.see receiver id seenAt).evaluateRouting assertions) := by
  refine forall₂_evaluateRouting.mpr fun assertion _ => ⟨fun name _ => ?_, fun name _ => ?_⟩
  · refine ⟨rfl, rfl, rfl, fun _ => ?_, fun h => by cases h⟩
    rw [expect_eq, expect_eq, passed_received_iff, passed_received_iff, sentBy_see]
    refine fun ⟨hne, hsubset⟩ => ⟨hne, fun id' hid' => ?_⟩
    obtain ⟨name', sentAt, seen, hsent, hseen, hle⟩ := hsubset hid'
    refine (mem_inTime_see_of_ne ?_).mpr ⟨name', sentAt, seen, hsent, hseen, hle⟩
    -- the new receipt is not one that came in time
    rintro heq
    refine hnew (AList.lookup_isSome.mp ?_)
    rw [← heq]
    exact Option.isSome_iff_exists.mpr ⟨seen, hseen⟩
  · -- what was seen before is seen after
    refine ⟨rfl, rfl, rfl, fun h => (by cases h), fun _ => ?_⟩
    rw [forbid_eq, forbid_eq, passed_notReceived_iff, passed_notReceived_iff, sentBy_see]
    rintro ⟨hne, hnone⟩
    exact ⟨hne, fun id' hid' hseen => hnone id' hid' (seenBy_subset_see hseen)⟩

/-- **The specification of the verdicts.** They are those of what the ledger says, in the order of
the assertions, whatever the order of the maps; no receiver is both reached and not reached, and a
new receipt is monotone. -/
theorem evaluateRouting_spec (state : CorrelationLedger) (assertions : List RoutingAssertion) :
    (state.evaluateRouting assertions = assertions.flatMap fun assertion =>
      assertion.receivers.map (state.view.received assertion) ++
        assertion.forbiddenReceivers.map (state.view.notReceived assertion)) ∧
    (∀ other : CorrelationLedger, other.sent.entries.Perm state.sent.entries →
      other.seen.entries.Perm state.seen.entries →
      other.evaluateRouting assertions = state.evaluateRouting assertions) ∧
    (∀ result ∈ state.evaluateRouting assertions, ∀ result' ∈ state.evaluateRouting assertions,
      result.expectation = .received → result'.expectation = .notReceived →
      result.sender = result'.sender → result.receiver = result'.receiver →
      ¬ (result.passed = true ∧ result'.passed = true)) ∧
    ∀ receiver id seenAt, (receiver, id) ∉ state.seen →
      List.Forall₂ Monotone (state.evaluateRouting assertions)
        ((state.see receiver id seenAt).evaluateRouting assertions) := by
  refine ⟨evaluateRouting_eq state assertions, fun other hsent hseen => ?_,
    fun result hresult result' hresult' => not_both_passed hresult hresult',
    fun receiver id seenAt hnew => monotone_see hnew assertions⟩
  rw [evaluateRouting_eq, evaluateRouting_eq, view_eq_of_perm hsent hseen]

/-! ## Receipts of an event already seen -/

/-- A delivery that passed passes with the same count. -/
def KeepsDelivery (before after : AssertionResult) : Prop :=
  before.expectation = .received → before.passed = true →
    after.passed = true ∧ after.receivedCount = before.receivedCount

/-- The count of a delivery that passed is that of the events sent. -/
theorem receivedCount_of_passed {assertion : RoutingAssertion} {receiver : String}
    (h : (state.expect assertion receiver).passed = true) :
    (state.expect assertion receiver).receivedCount =
      (state.view.sentBy assertion.sender).ncard := by
  rw [expect_eq] at h ⊢
  exact (LedgerView.received_passed.mp h).2

/-- **When a further receipt spoils no delivery.** The receipt is recorded over an earlier one of
the same event, so it keeps the deliveries that passed exactly when it comes within the timeout of
each of them. -/
theorem receipt_keeps_iff (w : World) (assertions : List RoutingAssertion) (receiver : String)
    (id : Uuid) :
    List.Forall₂ KeepsDelivery (w.ledger.evaluateRouting assertions)
        ((w.apply (.observe receiver id)).ledger.evaluateRouting assertions) ↔
      ∀ assertion ∈ assertions, receiver ∈ assertion.receivers →
        w.ledger.view.sentBy assertion.sender ⊆ w.ledger.view.inTime receiver
          (assertion.timeout.getD (Duration.fromSecs 30)) →
        ∀ sentAt, w.ledger.sent.lookup id = some (assertion.sender, sentAt) →
          w.now ≤ sentAt + assertion.timeout.getD (Duration.fromSecs 30) := by
  have hsee : (w.apply (.observe receiver id)).ledger = w.ledger.see receiver id w.now := rfl
  rw [hsee, forall₂_evaluateRouting]
  refine forall₂_congr fun assertion _ => ?_
  constructor
  · -- a delivery that passed passes with the receipt, which is then in time
    rintro ⟨hkeeps, -⟩ hreceiver hsubset sentAt hsent
    have hpassed : (w.ledger.expect assertion receiver).passed = true := by
      rw [expect_eq, passed_received_iff]
      exact ⟨⟨id, sentAt, hsent⟩, hsubset⟩
    obtain ⟨hpassed', -⟩ := hkeeps receiver hreceiver rfl hpassed
    rw [expect_eq, passed_received_iff] at hpassed'
    exact (mem_inTime_see hsent).mp (hpassed'.2 ⟨sentAt, hsent⟩)
  · refine fun hlate => ⟨fun name hname _ hpassed => ?_, fun name _ h => by cases h⟩
    have hpassed' : ((w.ledger.see receiver id w.now).expect assertion name).passed = true := by
      rw [expect_eq, passed_received_iff] at hpassed ⊢
      refine ⟨hpassed.1, fun id' hid' => ?_⟩
      by_cases heq : (name, id') = (receiver, id)
      · -- the earlier receipt of the event is overwritten
        obtain ⟨rfl, rfl⟩ := Prod.mk.inj heq
        obtain ⟨sentAt, hsent⟩ := hid'
        have hsent : w.ledger.sent.lookup id' = some (assertion.sender, sentAt) := hsent
        exact (mem_inTime_see hsent).mpr (hlate hname hpassed.2 sentAt hsent)
      · exact (mem_inTime_see_of_ne heq).mpr (hpassed.2 hid')
    refine ⟨hpassed', ?_⟩
    rw [receivedCount_of_passed hpassed, receivedCount_of_passed hpassed', sentBy_see]

/-- An event of alice is sent, and bob sees it at once. -/
def delivery : World :=
  ((World.initial false).apply (.publish 7 "alice" 0)).apply (.observe "bob" 7)

/-- A copy that arrives after the timeout takes the delivery back. -/
theorem receipt_spoils :
    delivery.ledger.isSeen "bob" 7 = true ∧
    delivery.ledger.evaluateRouting [{ sender := "alice", receivers := ["bob"] }] =
      [⟨"alice", "bob", .received, true, 1⟩] ∧
    ({ delivery with now := 31000000000 }.apply (.observe "bob" 7)).ledger.evaluateRouting
        [{ sender := "alice", receivers := ["bob"] }] =
      [⟨"alice", "bob", .received, false, 0⟩] :=
  ⟨rfl, rfl, rfl⟩

end CorrelationLedger

end TakBench
