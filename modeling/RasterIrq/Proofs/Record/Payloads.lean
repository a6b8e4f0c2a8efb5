import RasterIrq.Proofs.Json.Layout
import RasterIrq.Proofs.Json.Members
import RasterIrq.Proofs.Json.Spelling
import RasterIrq.Proofs.Record.RoundTrip

/-!
# Payloads laid out otherwise

A record's payload may have been written by another hand: its members, and those of the two objects
in it, in another order, with other members between them, with blanks and escapes anywhere. It is
read all the same, if it holds every field of the record exactly once. `HeldBy` says so for a
counter, a monitor and a record. What cannot be read is not read as something else: a payload in
which a field is missing or repeated, or a number is not of the field's size, or behind which
something follows, is malformed.

Results:
1. `Counter.ofJson?_of_heldBy`, `Monitor.ofJson?_of_heldBy`, `Record.ofJson?_of_heldBy`: what an
   object holds is read from it.
2. `Counter.ofJson?_of_fault`, `Monitor.ofJson?_of_fault`, `Record.ofJson?_of_fault`: an object with
   a fault is not read.
3. `Record.decode_laid`: both for framed payloads in any layout, and what becomes of a payload that
   loses a field, has one twice, or has something behind it.
-/

namespace RasterIrq

open Json (HoldsFields FieldFault OutOfRange Laid)

/-! ## The counter -/

namespace Counter

/-- An object that holds the five fields of a counter. -/
def HeldBy (c : Counter) : Json → Prop :=
  HoldsFields fieldNames [
    ("count", .ofNat c.count.toNat),
    ("reload", .ofNat c.reload.toNat),
    ("enabled", .ofBool c.enabled),
    ("reload_pending", .ofBool c.reloadPending),
    ("pending", .ofBool c.pending)]

/-- An object with a field of a counter missing or repeated, or a number in it that is no 16-bit
word. -/
def Fault : Json → Prop :=
  FieldFault fieldNames [] fun name v => name ∈ ["count", "reload"] ∧ OutOfRange 65536 v

theorem ofJson?_of_heldBy {c : Counter} {v : Json} (h : c.HeldBy v) : ofJson? v = some c := by
  have hread : v.fields? fieldNames = some [some _, some _, some _, some _, some _] :=
    Json.fields?_of_holdsFields (by simp) h
  rw [ofJson?, hread]
  simp only [Option.bind_eq_bind, Option.bind_some, Json.word16?_ofNat, Json.ofBool, Json.bool?,
    Option.pure_def]

theorem heldBy_toJson (c : Counter) : c.HeldBy c.toJson :=
  Json.holdsFields_ofFields (.refl _) (by simp)

theorem exists_fields_of_ofJson? {c : Counter} {v : Json} (h : ofJson? v = some c) :
    ∃ count reload enabled reloadPending pending,
      v.fields? fieldNames
        = some [some count, some reload, some enabled, some reloadPending, some pending] ∧
      count.word16? = some c.count ∧ reload.word16? = some c.reload := by
  obtain ⟨values, hread, h⟩ := Option.bind_eq_some_iff.mp h
  split at h
  · obtain ⟨n, hcount, h⟩ := Option.bind_eq_some_iff.mp h
    obtain ⟨m, hreload, h⟩ := Option.bind_eq_some_iff.mp h
    obtain ⟨_, -, h⟩ := Option.bind_eq_some_iff.mp h
    obtain ⟨_, -, h⟩ := Option.bind_eq_some_iff.mp h
    obtain ⟨_, -, h⟩ := Option.bind_eq_some_iff.mp h
    cases h
    exact ⟨_, _, _, _, _, hread, hcount, hreload⟩
  · cases h

theorem ofJson?_of_fault {v : Json} (h : Fault v) : ofJson? v = none := by
  rw [Option.eq_none_iff_forall_ne_some]
  intro c hc
  obtain ⟨count, reload, enabled, reloadPending, pending, hread, hcount, hreload⟩ :=
    exists_fields_of_ofJson? hc
  refine Json.not_fieldFault_of_fields? hread ?_ h
  simp [fieldNames, Json.not_outOfRange_of_map hcount, Json.not_outOfRange_of_map hreload]

end Counter

/-! ## The monitor -/

namespace Monitor

/-- An object that holds the fields of a monitor. Where there was no clean edge yet, its cycle is
null or missing. -/
def HeldBy (m : Monitor) (v : Json) : Prop :=
  HoldsFields fieldNames [
    ("line_high", .ofBool m.lineHigh),
    ("last_edge", .ofOption (fun c => .ofNat c.toNat) m.lastEdge),
    ("clean_edges", .ofNat m.cleanEdges.toNat)] v ∨
  m.lastEdge = none ∧
    HoldsFields fieldNames [
      ("line_high", .ofBool m.lineHigh),
      ("clean_edges", .ofNat m.cleanEdges.toNat)] v

/-- An object with a field of a monitor missing, other than the cycle of the last clean edge, or
with a field repeated, or a number in it that is no 64-bit word. -/
def Fault : Json → Prop :=
  FieldFault fieldNames ["last_edge"] fun name v =>
    name ∈ ["last_edge", "clean_edges"] ∧ OutOfRange 18446744073709551616 v

theorem ofJson?_of_heldBy {m : Monitor} {v : Json} (h : m.HeldBy v) : ofJson? v = some m := by
  rcases h with h | ⟨hnone, h⟩
  · have hread : v.fields? fieldNames = some [some _, some _, some _] :=
      Json.fields?_of_holdsFields (by simp) h
    rw [ofJson?, hread]
    simp only [Option.bind_eq_bind, Option.bind_some, lastEdgeOfJson?_ofOption,
      Json.word64?_ofNat, Json.ofBool, Json.bool?, Option.pure_def]
  · have hread : v.fields? fieldNames = some [some _, none, some _] :=
      Json.fields?_of_holdsFields (by simp) h
    rw [ofJson?, hread]
    simp only [Option.bind_eq_bind, Option.bind_some, lastEdgeOfJson?,
      Json.word64?_ofNat, Json.ofBool, Json.bool?, Option.pure_def, ← hnone]

theorem heldBy_toJson (m : Monitor) : m.HeldBy m.toJson :=
  .inl (Json.holdsFields_ofFields (.refl _) (by simp))

theorem not_outOfRange_of_lastEdge {v : Json} {o : Option UInt64}
    (h : lastEdgeOfJson? (some v) = some o) : ¬ OutOfRange 18446744073709551616 v := by
  rintro ⟨spelling, rfl, hspelling⟩
  obtain ⟨n, hn, -⟩ := Option.map_eq_some_iff.mp h
  exact Json.not_outOfRange_of_map hn ⟨spelling, rfl, hspelling⟩

theorem exists_fields_of_ofJson? {m : Monitor} {v : Json} (h : ofJson? v = some m) :
    ∃ lineHigh lastEdge cleanEdges,
      v.fields? fieldNames = some [some lineHigh, lastEdge, some cleanEdges] ∧
      lastEdgeOfJson? lastEdge = some m.lastEdge ∧ cleanEdges.word64? = some m.cleanEdges := by
  obtain ⟨values, hread, h⟩ := Option.bind_eq_some_iff.mp h
  split at h
  · obtain ⟨_, -, h⟩ := Option.bind_eq_some_iff.mp h
    obtain ⟨o, hlast, h⟩ := Option.bind_eq_some_iff.mp h
    obtain ⟨n, hclean, h⟩ := Option.bind_eq_some_iff.mp h
    cases h
    exact ⟨_, _, _, hread, hlast, hclean⟩
  · cases h

theorem ofJson?_of_fault {v : Json} (h : Fault v) : ofJson? v = none := by
  rw [Option.eq_none_iff_forall_ne_some]
  intro m hm
  obtain ⟨lineHigh, lastEdge, cleanEdges, hread, hlast, hclean⟩ := exists_fields_of_ofJson? hm
  have hword : ∀ w ∈ lastEdge, ¬ OutOfRange 18446744073709551616 w := by
    rintro w rfl
    exact not_outOfRange_of_lastEdge hlast
  refine Json.not_fieldFault_of_fields? hread ?_ h
  simpa [fieldNames, Json.not_outOfRange_of_map hclean] using hword

end Monitor

/-! ## The whole record -/

/-- A string with the name, or an object whose only member has it and holds null. -/
def Mirroring.HeldBy (m : Mirroring) (v : Json) : Prop :=
  v.text? = some m.name ∨ ∃ k, v = .object [(k, .atom .null)] ∧ Json.Piece.text? k = some m.name

theorem Mirroring.ofJson?_of_heldBy {m : Mirroring} {v : Json} (h : m.HeldBy v) :
    ofJson? v = some m := by
  have hchoice : v.choice? = some m.name := by
    rcases h with h | ⟨k, rfl, hk⟩
    · cases v with
      | atom a => cases a <;> exact h
      | list _ => cases h
      | object _ => cases h
    · exact hk
  rw [ofJson?, hchoice]
  exact ofName?_name m

namespace Record

/-- An object that holds the six fields of a record: the name as a string in any of its spellings,
and counter and monitor as objects that hold theirs. -/
def HeldBy (r : Record) (v : Json) : Prop :=
  ∃ chip counter monitor mirroring : Json,
    HoldsFields fieldNames [
      ("chip", chip),
      ("irq", counter),
      ("a12", monitor),
      ("bank_registers", bytesToJson r.banks),
      ("control", bytesToJson r.control),
      ("mirroring", mirroring)] v ∧
    chip.text? = some r.chip ∧ r.counter.HeldBy counter ∧ r.monitor.HeldBy monitor ∧
    r.mirroring.HeldBy mirroring

/-- What a record's field may not hold: a counter or a monitor with a fault, or a list with a number
that is no byte. -/
def BadField (name : String) (v : Json) : Prop :=
  name = "irq" ∧ Counter.Fault v ∨ name = "a12" ∧ Monitor.Fault v ∨
    name ∈ ["bank_registers", "control"] ∧ ∃ items, v = .list items ∧ ∃ w ∈ items, OutOfRange 256 w

/-- An object with a field of a record missing or repeated, or with a fault in a field. -/
def Fault : Json → Prop :=
  FieldFault fieldNames [] BadField

theorem ofJson?_of_heldBy {r : Record} {v : Json} (h : r.HeldBy v) : ofJson? v = some r := by
  obtain ⟨chip, counter, monitor, mirroring, h, hchip, hcounter, hmonitor, hmirroring⟩ := h
  have hread : v.fields? fieldNames = some [some _, some _, some _, some _, some _, some _] :=
    Json.fields?_of_holdsFields (by simp) h
  rw [ofJson?, hread]
  simp only [Option.bind_eq_bind, Option.bind_some, hchip, Counter.ofJson?_of_heldBy hcounter,
    Monitor.ofJson?_of_heldBy hmonitor, bytesOfJson?_bytesToJson,
    Mirroring.ofJson?_of_heldBy hmirroring, Option.pure_def]

/-- The payload that a record is written with holds it. -/
theorem heldBy_toJson (r : Record) : r.HeldBy r.toJson :=
  ⟨.ofText r.chip, r.counter.toJson, r.monitor.toJson, .ofText r.mirroring.name,
    Json.holdsFields_ofFields (.refl _) (by simp), Json.text?_ofText r.chip,
    r.counter.heldBy_toJson, r.monitor.heldBy_toJson, .inl (Json.text?_ofText r.mirroring.name)⟩

theorem exists_fields_of_ofJson? {r : Record} {v : Json} (h : ofJson? v = some r) :
    ∃ chip counter monitor banks control mirroring,
      v.fields? fieldNames
        = some [some chip, some counter, some monitor, some banks, some control, some mirroring] ∧
      Counter.ofJson? counter = some r.counter ∧ Monitor.ofJson? monitor = some r.monitor ∧
      bytesOfJson? banks = some r.banks ∧ bytesOfJson? control = some r.control := by
  obtain ⟨values, hread, h⟩ := Option.bind_eq_some_iff.mp h
  split at h
  · obtain ⟨_, -, h⟩ := Option.bind_eq_some_iff.mp h
    obtain ⟨counter, hcounter, h⟩ := Option.bind_eq_some_iff.mp h
    obtain ⟨monitor, hmonitor, h⟩ := Option.bind_eq_some_iff.mp h
    obtain ⟨banks, hbanks, h⟩ := Option.bind_eq_some_iff.mp h
    obtain ⟨control, hcontrol, h⟩ := Option.bind_eq_some_iff.mp h
    obtain ⟨_, -, h⟩ := Option.bind_eq_some_iff.mp h
    cases h
    exact ⟨_, _, _, _, _, _, hread, hcounter, hmonitor, hbanks, hcontrol⟩
  · cases h

/-- No item of a list of bytes is out of range. -/
theorem not_outOfRange_of_bytes {items : List Json} {bytes : List UInt8}
    (h : bytesOfJson? (.list items) = some bytes) {w : Json} (hw : w ∈ items) :
    ¬ OutOfRange 256 w := by
  obtain ⟨b, -, hb⟩ := Json.exists_mem_zip_of_mapM h hw
  exact Json.not_outOfRange_of_map hb

theorem ofJson?_of_fault {v : Json} (h : Fault v) : ofJson? v = none := by
  rw [Option.eq_none_iff_forall_ne_some]
  intro r hr
  obtain ⟨chip, counter, monitor, banks, control, mirroring, hread, hcounter, hmonitor, hbanks,
    hcontrol⟩ := exists_fields_of_ofJson? hr
  have hcounter' : ¬ Counter.Fault counter := fun hfault => by
    rw [Counter.ofJson?_of_fault hfault] at hcounter
    cases hcounter
  have hmonitor' : ¬ Monitor.Fault monitor := fun hfault => by
    rw [Monitor.ofJson?_of_fault hfault] at hmonitor
    cases hmonitor
  have hlist : ∀ {v : Json} {bytes : List UInt8}, bytesOfJson? v = some bytes →
      ∀ items, v = .list items → ∀ w ∈ items, ¬ OutOfRange 256 w := by
    rintro v bytes h items rfl w hw
    exact not_outOfRange_of_bytes h hw
  refine Json.not_fieldFault_of_fields? hread ?_ h
  simpa [fieldNames, BadField, hcounter', hmonitor'] using ⟨hlist hbanks, hlist hcontrol⟩

/-- A payload that holds a record has a fault as soon as one of the fields is removed. -/
theorem HeldBy.fault_of_removed {r : Record} {front back : List (List Json.Piece × Json)}
    {m : List Json.Piece × Json} (h : r.HeldBy (.object (front ++ m :: back))) {name : String}
    (hm : Json.Piece.text? m.1 = some name) (hname : name ∈ fieldNames) :
    Fault (.object (front ++ back)) := by
  obtain ⟨_, _, _, _, h, -⟩ := h
  exact h.fieldFault_of_removed (by simp) hm hname List.not_mem_nil

/-- It also has one as soon as another member stands anywhere under the name of a field. -/
theorem HeldBy.fault_of_repeated {r : Record} {front back : List (List Json.Piece × Json)}
    (h : r.HeldBy (.object (front ++ back))) {m : List Json.Piece × Json} {name : String}
    (hm : Json.Piece.text? m.1 = some name) (hname : name ∈ fieldNames) :
    Fault (.object (front ++ m :: back)) := by
  obtain ⟨_, _, _, _, h, -⟩ := h
  exact h.fieldFault_of_repeated hm hname hname

/-! ## Framed payloads -/

/-- A framed payload decodes to what its value reads as. -/
theorem decode_framed_of_laid {v : Json} {text : List UInt8} (h : Laid v.tokens text) :
    decode (framed text)
      = match ofJson? v with
        | some r => .ok r
        | none => .error .malformed := by
  have hpayload : ofPayload? text = ofJson? v := by
    rw [ofPayload?, Json.ofText?_eq_some_iff.mpr h, Option.bind_eq_bind, Option.bind_some]
  rw [← hpayload]
  exact decode_framed text

/-- A framed payload that holds every field of a record once decodes to the record, however it is
laid out. With a field missing or repeated, with a number that does not fit, or with anything but
blanks behind the object, it is malformed. So it is when an object that holds a record loses one of
the fields, or gets one of them a second time with whatever value. -/
theorem decode_laid {v : Json} {text : List UInt8} (h : Laid v.tokens text) :
    (∀ r : Record, r.HeldBy v → decode (framed text) = .ok r) ∧
    (Fault v → decode (framed text) = .error .malformed) ∧
    (∀ (r : Record) (front back : List (List Json.Piece × Json)) (m : List Json.Piece × Json),
      (∃ name ∈ fieldNames, Json.Piece.text? m.1 = some name) →
      r.HeldBy (.object (front ++ m :: back)) ∧ v = .object (front ++ back) ∨
        r.HeldBy (.object (front ++ back)) ∧ v = .object (front ++ m :: back) →
      decode (framed text) = .error .malformed) ∧
    (∀ members, v = .object members → ∀ more, (∃ b ∈ more, Json.Token.isBlank b = false) →
      decode (framed (text ++ more)) = .error .malformed) := by
  have hmalformed : Fault v → decode (framed text) = .error .malformed := fun hfault => by
    rw [decode_framed_of_laid h, ofJson?_of_fault hfault]
  refine ⟨fun r hr => ?_, hmalformed, ?_, ?_⟩
  · rw [decode_framed_of_laid h, ofJson?_of_heldBy hr]
  · rintro r front back m ⟨name, hname, hm⟩ (⟨hwhole, rfl⟩ | ⟨hwhole, rfl⟩)
    · exact hmalformed (hwhole.fault_of_removed hm hname)
    · exact hmalformed (hwhole.fault_of_repeated hm hname)
  · rintro members rfl more hmore
    rw [decode_framed, ofPayload?, Json.ofText?_append_eq_none h hmore, Option.bind_eq_bind,
      Option.bind_none]

/-- A record's fields from last to first, with an escape in its name, a member of another name in
front, no cycle for the last clean edge, and blanks at both ends; then with a bracket behind it, and
a list with a number beyond a byte. The record as it is written has its mirroring taken out, and then
put in a second time. -/
theorem decode_laid_reversed :
    let r : Record := ⟨"é", {}, {}, [7], [], .vertical⟩
    let fields : List (String × Json) := [
      ("chip", .atom (.string [.unit 0xE9])),
      ("irq", Counter.toJson {}),
      ("a12", .ofFields [("line_high", .ofBool false), ("clean_edges", .ofNat 0)]),
      ("bank_registers", bytesToJson [7]),
      ("control", bytesToJson []),
      ("mirroring", .ofFields [("Vertical", .atom .null)]),
      ("note", .list [.atom .null])]
    let v := Json.ofFields fields.reverse
    let text := 0x20 :: (v.compact ++ [0x0A])
    let large : Json := .ofFields [("bank_registers", .list [.ofNat 256])]
    let others : List (String × Json) := [
      ("chip", .ofText "é"),
      ("irq", Counter.toJson {}),
      ("a12", Monitor.toJson {}),
      ("bank_registers", bytesToJson [7]),
      ("control", bytesToJson [])]
    let last : String × Json := ("mirroring", .ofText "Vertical")
    let repeated := Json.ofFields (others ++ [last, last])
    decode (framed text) = .ok r ∧ decode (framed (text ++ [0x7D])) = .error .malformed ∧
      decode (framed large.compact) = .error .malformed ∧
      r.toJson = .ofFields (others ++ [last]) ∧
      decode (framed (Json.ofFields others).compact) = .error .malformed ∧
      decode (framed repeated.compact) = .error .malformed := by
  intro r fields v text large others last repeated
  have hnull : (Json.atom .null).Readable := Json.readable_atom_iff.mpr trivial
  have hv : v.Readable := by
    refine Json.readable_ofFields_iff.mpr fun f hf => ?_
    rw [List.mem_reverse] at hf
    revert f
    simp only [fields, List.forall_mem_cons]
    refine ⟨Json.readable_atom_iff.mpr ?_, Counter.readable_toJson _,
      Json.readable_ofFields_iff.mpr ?_, readable_bytesToJson _, readable_bytesToJson _,
      Json.readable_ofFields_iff.mpr ?_, Json.readable_list_iff.mpr ?_, fun f hf => nomatch hf⟩
    · exact fun p hp => List.mem_singleton.mp hp ▸ (by decide : (0x80 : UInt16) ≤ 0xE9)
    · simp only [List.forall_mem_cons]
      exact ⟨Json.readable_ofBool _, Json.readable_ofNat _, fun f hf => nomatch hf⟩
    · exact fun f hf => List.mem_singleton.mp hf ▸ hnull
    · exact fun w hw => List.mem_singleton.mp hw ▸ hnull
  have hlarge : large.Readable := by
    refine Json.readable_ofFields_iff.mpr fun f hf => List.mem_singleton.mp hf ▸ ?_
    refine Json.readable_list_iff.mpr fun w hw => List.mem_singleton.mp hw ▸ ?_
    exact Json.readable_ofNat 256
  have hlaid : Laid v.tokens text := by
    have hend : Laid [] [0x0A] := .blank rfl .nil
    have happend := (Json.laid_compact hv).append hend
    rw [List.append_nil] at happend
    exact .blank rfl happend
  have hheld : r.HeldBy v := by
    refine ⟨_, _, _, _, Json.holdsFields_ofFields (List.reverse_perm fields) ?_, ?_, ?_, ?_, ?_⟩
    · simp [fieldNames]
    · have hspells : Json.Piece.Spells [.unit 0xE9] "é".toList :=
        .unit (u := 0xE9) (by decide) (by decide) .nil
      exact Json.Piece.text?_eq_some_iff.mpr hspells
    · exact Counter.heldBy_toJson {}
    · exact .inr ⟨rfl, Json.holdsFields_ofFields (.refl _) (by simp)⟩
    · exact .inr ⟨_, rfl, Json.Piece.text?_ofText "Vertical"⟩
  have hfault : Fault large := by
    have hbad : BadField "bank_registers" (.list [.ofNat 256]) :=
      .inr (.inr ⟨by decide, _, rfl, _, List.mem_singleton_self _,
        Json.outOfRange_ofNat (by decide)⟩)
    have hmem := Json.mem_textual.mpr
      (List.mem_singleton_self ("bank_registers", Json.list [.ofNat 256]))
    exact .value (by decide) (Json.named_written _ ▸ hmem) hbad
  have hparts : ∀ f ∈ others ++ [last], f.2.Readable :=
    Json.readable_ofFields_iff.mp r.readable_toJson
  have hremoved : (Json.ofFields others).Readable :=
    Json.readable_ofFields_iff.mpr fun f hf => hparts f (List.mem_append_left _ hf)
  have hrepeated : repeated.Readable :=
    Json.readable_ofFields_iff.mpr fun f hf => hparts f (by simpa using hf)
  let members := others.map fun f => (Json.Piece.ofText f.1, f.2)
  let member : List Json.Piece × Json := (Json.Piece.ofText last.1, last.2)
  have hname : ∃ name ∈ fieldNames, Json.Piece.text? member.1 = some name :=
    ⟨last.1, by decide, Json.Piece.text?_ofText last.1⟩
  have hwritten : r.HeldBy (.object (members ++ [member])) := r.heldBy_toJson
  obtain ⟨hread, -, -, hmore⟩ := decode_laid hlaid
  obtain ⟨-, hmalformed, -⟩ := decode_laid (Json.laid_compact hlarge)
  obtain ⟨-, -, hlost, -⟩ := decode_laid (Json.laid_compact hremoved)
  obtain ⟨-, -, hagain, -⟩ := decode_laid (Json.laid_compact hrepeated)
  refine ⟨hread r hheld, hmore _ rfl [0x7D] ⟨0x7D, List.mem_singleton_self _, rfl⟩,
    hmalformed hfault, rfl, ?_, ?_⟩
  · exact hlost r members [] member hname (.inl ⟨hwritten, rfl⟩)
  · exact hagain r (members ++ [member]) [] member hname (.inr ⟨hwritten, rfl⟩)

end Record

end RasterIrq
