import RasterIrq.Record
import RasterIrq.Json.Fields

/-!
# The payload of a record

A record's payload is a JSON document. `Record.toJson` writes the fields in one fixed order;
`Record.ofJson?` takes them in any order, among other members, or as lists without names. The cycle
of the last clean edge is the only field that may be missing: then there was none.
-/

namespace RasterIrq

namespace Counter

def fieldNames : List String :=
  ["count", "reload", "enabled", "reload_pending", "pending"]

def toJson (c : Counter) : Json :=
  .ofFields [
    ("count", .ofNat c.count.toNat),
    ("reload", .ofNat c.reload.toNat),
    ("enabled", .ofBool c.enabled),
    ("reload_pending", .ofBool c.reloadPending),
    ("pending", .ofBool c.pending)]

def ofJson? (v : Json) : Option Counter := do
  match ← v.fields? fieldNames with
  | [some count, some reload, some enabled, some reloadPending, some pending] =>
    return ⟨← count.word16?, ← reload.word16?, ← enabled.bool?, ← reloadPending.bool?,
      ← pending.bool?⟩
  | _ => none

end Counter

namespace Monitor

def fieldNames : List String :=
  ["line_high", "last_edge", "clean_edges"]

def toJson (m : Monitor) : Json :=
  .ofFields [
    ("line_high", .ofBool m.lineHigh),
    ("last_edge", .ofOption (fun c => .ofNat c.toNat) m.lastEdge),
    ("clean_edges", .ofNat m.cleanEdges.toNat)]

/-- The cycle of the last clean edge: none if the field is missing or null. -/
def lastEdgeOfJson? : Option Json → Option (Option UInt64)
  | none => some none
  | some v => v.nullable? Json.word64?

def ofJson? (v : Json) : Option Monitor := do
  match ← v.fields? fieldNames with
  | [some lineHigh, lastEdge, some cleanEdges] =>
    return ⟨← lineHigh.bool?, ← lastEdgeOfJson? lastEdge, ← cleanEdges.word64?⟩
  | _ => none

end Monitor

namespace Mirroring

def ofJson? (v : Json) : Option Mirroring := do
  ofName? (← v.choice?)

end Mirroring

namespace Record

def fieldNames : List String :=
  ["chip", "irq", "a12", "bank_registers", "control", "mirroring"]

def bytesToJson (bytes : List UInt8) : Json :=
  .list (bytes.map fun b => .ofNat b.toNat)

def bytesOfJson? (v : Json) : Option (List UInt8) := do
  (← v.list?).mapM Json.word8?

def toJson (r : Record) : Json :=
  .ofFields [
    ("chip", .ofText r.chip),
    ("irq", r.counter.toJson),
    ("a12", r.monitor.toJson),
    ("bank_registers", bytesToJson r.banks),
    ("control", bytesToJson r.control),
    ("mirroring", .ofText r.mirroring.name)]

def ofJson? (v : Json) : Option Record := do
  match ← v.fields? fieldNames with
  | [some chip, some counter, some monitor, some banks, some control, some mirroring] =>
    return ⟨← chip.text?, ← Counter.ofJson? counter, ← Monitor.ofJson? monitor,
      ← bytesOfJson? banks, ← bytesOfJson? control, ← Mirroring.ofJson? mirroring⟩
  | _ => none

/-- The payload as bytes. -/
def payload (r : Record) : List UInt8 :=
  r.toJson.compact

def ofPayload? (bytes : List UInt8) : Option Record := do
  ofJson? (← Json.ofText? bytes)

end Record

end RasterIrq
