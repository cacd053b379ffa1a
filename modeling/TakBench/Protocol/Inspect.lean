import TakBench.Protocol.Decoder
import TakBench.Protocol.Event

/-!
# Inspecting a received event

`inspectEvent` reads the XML of a frame and takes from it the id and the type of the event and the
correlation id of its `tak_bench` element.

## Main definitions

* `inspectEvent`
* `validateXml`: the check of a frame in the decoder

## Main results

* `inspectEvent_toXml`: what is read back from the XML of a position event
-/

namespace TakBench

open Utf8

/-- What is known of an incoming event. -/
structure ReceivedEvent where
  raw : String
  uid : Option String
  eventType : Option String
  correlationId : Option Uuid

variable (P : Platform)

/-- `validate_xml`: reading to the end fails nowhere. -/
def validateXml (frame : List UInt8) : Except P.XmlError Unit := (P.readXml frame).map fun _ => ()

/-- An attribute of an `event` element. -/
def inspectEventAttribute (received : ReceivedEvent) (attr : Markup.Attribute) : ReceivedEvent :=
  if attr.key = asBytes "uid" then { received with uid := some (fromUtf8Lossy attr.value) }
  else if attr.key = asBytes "type" then
    { received with eventType := some (fromUtf8Lossy attr.value) }
  else received

/-- An attribute of a `tak_bench` element. -/
def inspectCorrelation (received : ReceivedEvent) (attr : Markup.Attribute) : ReceivedEvent :=
  if attr.key = asBytes "correlation_id" then
    { received with correlationId := P.parseUuid (fromUtf8Lossy attr.value) }
  else received

/-- One event of the XML reader. -/
def inspectTag (received : ReceivedEvent) : Markup.Event → ReceivedEvent
  | .start name attributes | .empty name attributes =>
    if name = asBytes "event" then attributes.foldl inspectEventAttribute received
    else if name = asBytes "tak_bench" then attributes.foldl (inspectCorrelation P) received
    else received
  | .close _ | .other _ => received

/-- `inspect_event`. -/
def inspectEvent (raw : String) : Except (DecodeError P.XmlError) ReceivedEvent :=
  match P.readXml (asBytes raw) with
  | .error e => .error (.xml e)
  | .ok events => .ok (events.foldl (inspectTag P) ⟨raw, none, none, none⟩)

variable {P}

theorem readXml_toXml (hS : P.Standard) (hP : P.Plain) (e : PositionEvent) :
    P.readXml (asBytes (e.toXml P)) = .ok (e.tags P) := by
  rw [e.asBytes_toXml]
  exact hS.readXml_write (e.document hP)

/-- The decoder's check accepts every position event. -/
theorem validateXml_toXml (hS : P.Standard) (hP : P.Plain) (e : PositionEvent) :
    validateXml P (asBytes (e.toXml P)) = .ok () := by
  rw [validateXml, readXml_toXml hS hP]
  rfl

/-- **What is read back from a position event**: its own correlation id, whatever markup the text
fields contain, and the uid still escaped. -/
theorem inspectEvent_toXml (hS : P.Standard) (hP : P.Plain) (e : PositionEvent) :
    inspectEvent P (e.toXml P) =
      .ok ⟨e.toXml P, some (escape e.uid), some "a-f-G-U-C", some e.correlationId⟩ := by
  rw [inspectEvent, readXml_toXml hS hP]
  simp [PositionEvent.tags, PositionEvent.innerTags, inspectTag, inspectEventAttribute,
    inspectCorrelation, textAttribute, asBytes_injective.eq_iff, hS.parse_display]

end TakBench
