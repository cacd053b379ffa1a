import TakBench.Library.Markup
import TakBench.Library.Search
import TakBench.Library.Utf8
import TakBench.Numeric
import TakBench.Protocol.Escaping

/-!
# Position events and their XML

`PositionEvent.toXml` writes a position event, its two text fields escaped. What the crates behind
the code do (rendering numbers, times and ids, reading XML) is a `Platform`; `Platform.Standard`
and `Platform.Plain` name the documented behaviour the results rely on.

The XML of an event is the text of a document: a balanced list of tags whose attribute values are
free of markup, whatever the text fields contain.

## Main definitions

* `Platform`, `Platform.Standard`, `Platform.Plain`
* `PositionEvent.toXml`
* `PositionEvent.document`: the tags of an event

## Main results

* `PositionEvent.asBytes_toXml`: the XML of an event is the text of its document
* `PositionEvent.tags_valid`: whatever the text fields contain, the tags are valid
-/

namespace TakBench

open Search Utf8

/-- A version 4 identifier. -/
abbrev Uuid := BitVec 128

/-- What the code takes from other crates: the XML reader run to the end of a text, and the
renderings of numbers, timestamps and ids. -/
structure Platform where
  XmlError : Type
  readXml : List UInt8 → Except XmlError (List Markup.Event)
  displayF64 : F64 → String
  rfc3339 : OffsetDateTime → String
  displayUuid : Uuid → String
  parseUuid : String → Option Uuid

/-- Standard XML tokenisation on documents of tags, and ids that parse back. -/
structure Platform.Standard (P : Platform) : Prop where
  readXml_write : ∀ d : Markup.Document, P.readXml (Markup.write d.events) = .ok d.events
  parse_display : ∀ id, P.parseUuid (P.displayUuid id) = some id

/-- Renderings without markup. -/
structure Platform.Plain (P : Platform) : Prop where
  displayF64 : ∀ x, PlainText (P.displayF64 x)
  rfc3339 : ∀ t, PlainText (P.rfc3339 t)
  displayUuid : ∀ id, PlainText (P.displayUuid id)

/-- A position event before it is written. -/
structure PositionEvent where
  uid : String
  callsign : String
  latitude : F64
  longitude : F64
  altitudeM : F64
  courseDeg : F64
  speedMps : F64
  time : OffsetDateTime
  stale : OffsetDateTime
  correlationId : Uuid

/-! ## Writing an event -/

variable (P : Platform)

/-- `PositionEvent::to_xml`. -/
def PositionEvent.toXml (e : PositionEvent) : String :=
  "<event version=\"2.0\" uid=\"" ++ escape e.uid ++ "\" type=\"a-f-G-U-C\" " ++
  "time=\"" ++ P.rfc3339 e.time ++ "\" start=\"" ++ P.rfc3339 e.time ++
  "\" stale=\"" ++ P.rfc3339 e.stale ++ "\" how=\"m-g\">" ++
  "<point lat=\"" ++ P.displayF64 e.latitude ++ "\" lon=\"" ++ P.displayF64 e.longitude ++
  "\" hae=\"" ++ P.displayF64 e.altitudeM ++ "\" ce=\"9999999\" le=\"9999999\"/>" ++
  "<detail><contact callsign=\"" ++ escape e.callsign ++
  "\"/><takv device=\"tak_bench\" os=\"Linux\" " ++
  "platform=\"tak_bench\" version=\"" ++ "0.2.0" ++
  "\"/><track course=\"" ++ P.displayF64 e.courseDeg ++
  "\" speed=\"" ++ P.displayF64 e.speedMps ++ "\"/>" ++
  "<tak_bench correlation_id=\"" ++ P.displayUuid e.correlationId ++ "\"/></detail></event>"

/-- An attribute from texts. -/
def textAttribute (key value : String) : Markup.Attribute := ⟨asBytes key, asBytes value⟩

/-- The tags of an event before the last one. -/
def PositionEvent.innerTags (e : PositionEvent) : List Markup.Event :=
  [.start (asBytes "event")
      [textAttribute "version" "2.0", textAttribute "uid" (escape e.uid),
        textAttribute "type" "a-f-G-U-C", textAttribute "time" (P.rfc3339 e.time),
        textAttribute "start" (P.rfc3339 e.time), textAttribute "stale" (P.rfc3339 e.stale),
        textAttribute "how" "m-g"],
    .empty (asBytes "point")
      [textAttribute "lat" (P.displayF64 e.latitude),
        textAttribute "lon" (P.displayF64 e.longitude),
        textAttribute "hae" (P.displayF64 e.altitudeM), textAttribute "ce" "9999999",
        textAttribute "le" "9999999"],
    .start (asBytes "detail") [],
    .empty (asBytes "contact") [textAttribute "callsign" (escape e.callsign)],
    .empty (asBytes "takv")
      [textAttribute "device" "tak_bench", textAttribute "os" "Linux",
        textAttribute "platform" "tak_bench", textAttribute "version" "0.2.0"],
    .empty (asBytes "track")
      [textAttribute "course" (P.displayF64 e.courseDeg),
        textAttribute "speed" (P.displayF64 e.speedMps)],
    .empty (asBytes "tak_bench") [textAttribute "correlation_id" (P.displayUuid e.correlationId)],
    .close (asBytes "detail")]

/-- The tags of an event. -/
def PositionEvent.tags (e : PositionEvent) : List Markup.Event :=
  e.innerTags P ++ [.close (asBytes "event")]

variable {P}

/-- The bytes of markup are those of one-character texts. -/
theorem cons_eq_asBytes (bytes : List UInt8) :
    60 :: bytes = asBytes "<" ++ bytes ∧ 62 :: bytes = asBytes ">" ++ bytes ∧
      47 :: bytes = asBytes "/" ++ bytes ∧ 32 :: bytes = asBytes " " ++ bytes ∧
      61 :: bytes = asBytes "=" ++ bytes ∧ 34 :: bytes = asBytes "\"" ++ bytes :=
  ⟨rfl, rfl, rfl, rfl, rfl, rfl⟩

set_option maxRecDepth 10000 in
/-- The XML of an event is the text of its tags. -/
theorem PositionEvent.asBytes_toXml (e : PositionEvent) :
    asBytes (e.toXml P) = Markup.write (e.tags P) := by
  simp only [tags, innerTags, Markup.write, Markup.Event.write, textAttribute,
    Markup.Attribute.write, List.flatMap_cons, List.flatMap_nil, List.append_assoc,
    List.cons_append, List.nil_append, List.append_nil, cons_eq_asBytes]
  simp only [← asBytes_append]
  -- two concatenations of the same characters, cut at different places
  refine congrArg asBytes (String.toList_inj.mp ?_)
  delta toXml
  simp only [String.toList_append, List.append_assoc]
  simp only [String.reduceToList]
  rfl

/-! ## The document of an event -/

theorem isValueByte_of_plain {s : String} (h : PlainText s) :
    ∀ b ∈ asBytes s, Markup.isValueByte b = true := by
  intro b hb
  -- a byte that is markup is a character of its own
  have hchar : ∀ c : Char, c.toNat < 128 → c.toNat = b.toNat → c ∈ s.toList := by
    intro c hc hcb
    obtain ⟨d, hd, hdb⟩ := exists_char_of_mem_asBytes (hcb ▸ hc) hb
    rwa [← Char.toNat_inj.mp (hdb.trans hcb.symm)]
  simp only [Markup.isValueByte, Bool.and_eq_true, decide_eq_true_eq]
  refine ⟨⟨?_, ?_⟩, ?_⟩
  · rintro rfl
    exact (h _ (hchar '<' (by decide) rfl)).1 rfl
  · rintro rfl
    exact (h _ (hchar '>' (by decide) rfl)).2.1 rfl
  · rintro rfl
    exact (h _ (hchar '"' (by decide) rfl)).2.2 rfl

theorem textAttribute_valid {key value : String} (hkey : Markup.ValidName (asBytes key))
    (hvalue : PlainText value) : (textAttribute key value).Valid :=
  ⟨hkey, isValueByte_of_plain hvalue⟩

/-- Whatever its text fields contain, the tags of an event are valid. -/
theorem PositionEvent.tags_valid (hP : P.Plain) (e : PositionEvent) :
    ∀ tag ∈ e.tags P, tag.Valid := by
  simp only [tags, innerTags, List.cons_append, List.nil_append, List.forall_mem_cons,
    Markup.Event.Valid, Markup.ValidAttributes]
  refine ⟨⟨by decide, ⟨?_, by simp only [List.map, textAttribute]; decide⟩⟩,
    ⟨by decide, ⟨?_, by simp only [List.map, textAttribute]; decide⟩⟩,
    ⟨by decide, by simp⟩,
    ⟨by decide, ⟨?_, by simp⟩⟩,
    ⟨by decide, ⟨?_, by simp only [List.map, textAttribute]; decide⟩⟩,
    ⟨by decide, ⟨?_, by simp only [List.map, textAttribute]; decide⟩⟩,
    ⟨by decide, ⟨?_, by simp⟩⟩, by decide, by decide, by simp⟩
  -- the attributes of `event`, `point`, `contact`, `takv`, `track` and `tak_bench`
  · refine ⟨?_, ?_, ?_, ?_, ?_, ?_, ?_, by simp⟩ <;> refine textAttribute_valid (by decide) ?_
    · decide
    · exact escape_plain _
    · decide
    · exact hP.rfc3339 _
    · exact hP.rfc3339 _
    · exact hP.rfc3339 _
    · decide
  · refine ⟨?_, ?_, ?_, ?_, ?_, by simp⟩ <;> refine textAttribute_valid (by decide) ?_
    · exact hP.displayF64 _
    · exact hP.displayF64 _
    · exact hP.displayF64 _
    · decide
    · decide
  · exact ⟨textAttribute_valid (by decide) (escape_plain _), by simp⟩
  · refine ⟨?_, ?_, ?_, ?_, by simp⟩ <;> exact textAttribute_valid (by decide) (by decide)
  · exact ⟨textAttribute_valid (by decide) (hP.displayF64 _),
      textAttribute_valid (by decide) (hP.displayF64 _), by simp⟩
  · exact ⟨textAttribute_valid (by decide) (hP.displayUuid _), by simp⟩

theorem PositionEvent.tags_balanced (e : PositionEvent) : Markup.Balanced [] (e.tags P) := by
  simp [tags, innerTags, Markup.Balanced]

/-- An event as a document. -/
def PositionEvent.document (hP : P.Plain) (e : PositionEvent) : Markup.Document :=
  ⟨e.tags P, e.tags_valid hP, e.tags_balanced⟩

/-- The last tag of an event is its only `</event>`. -/
theorem PositionEvent.notMem_innerTags (e : PositionEvent) :
    Markup.Event.close (asBytes "event") ∉ e.innerTags P := by
  have hne : asBytes "event" ≠ asBytes "detail" := by decide
  simpa [innerTags] using hne

end TakBench
