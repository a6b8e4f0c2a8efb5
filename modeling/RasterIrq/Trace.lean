import RasterIrq.Bus
import RasterIrq.Cartridge.Image
import RasterIrq.Trace.Options
import RasterIrq.Text.Base64
import RasterIrq.Text.Blank

/-!
# Traces

A trace runs a board for some frames and reports the lines on which the interrupt came. It can
start from a saved record, print the record at its end, and check that a record taken half-way
leads to the same second half.
-/

namespace RasterIrq.Trace

/-- Why a trace stops. -/
inductive Failure where
  | usage (e : UsageError)
  | unreadable (path reason : String)
  | image (e : ImageError)
  | board (number : UInt16) (e : BoardError)
  | notBase64
  | refused (e : RecordError)
  | snapshotRefused (e : RecordError)
  | diverged (expected found : List (List Int))
deriving DecidableEq, Repr

/-- A list in brackets. -/
def bracketed (items : List String) : String :=
  "[" ++ ", ".intercalate items ++ "]"

/-- The lines of several frames in brackets. -/
def showFrames (frames : List (List Int)) : String :=
  bracketed (frames.map fun lines => bracketed (lines.map toString))

/-- The failure's text, then the texts of its causes, the outermost first. -/
def Failure.texts : Failure → List String
  | usage e => e.texts
  | unreadable path reason => ["failed to read ROM " ++ path ++ ": " ++ reason, reason]
  | image e => [e.message]
  | board number e =>
    ["cannot run mapper " ++ toString number.toNat ++ " (" ++ Family.nameOfNumber number ++ ")",
      e.message]
  | notBase64 => ["--state is not valid base64"]
  | refused e => ["failed to restore mapper state", e.message]
  | snapshotRefused e => ["snapshot taken mid-run was rejected", e.message]
  | diverged expected found =>
    ["restored mapper diverged: expected " ++ showFrames expected ++ ", got "
      ++ showFrames found]

/-- How a file's contents are found, or why there are none. -/
abbrev Files := String → Except String (Array UInt8)

/-- The cartridge that the options name. -/
def cartridge (files : Files) (o : Options) : Except Failure Cartridge :=
  match o.rom with
  | none => .ok (Cartridge.blank o.mapper o.submapper 16 128)
  | some path =>
    match files path with
    | .error reason => .error (.unreadable path reason)
    | .ok bytes => (Cartridge.ofImage bytes).mapError .image

/-- The writes that arm the counter of a family's board. -/
def armWrites (family : Family) (latch : UInt8) : List (UInt16 × UInt8) :=
  match family with
  | .mmc3 => [(0xC000, latch), (0xC001, 0), (0xE001, 0)]
  | .mapper222 => [(0xF000, latch)]

/-- The writes that acknowledge an interrupt and arm the counter again. -/
def handlerWrites (family : Family) (latch : UInt8) : List (UInt16 × UInt8) :=
  match family with
  | .mmc3 => [(0xE000, 0), (0xE001, 0)]
  | .mapper222 => [(0xF000, latch)]

/-- The board that the options name, on a bus. -/
def newBus (files : Files) (o : Options) : Except Failure Bus := do
  let cart ← cartridge files o
  let board ← (Board.ofCartridge cart).mapError (.board cart.mapper)
  let bus : Bus := { board := board }
  return if o.spritesLow then bus.setTables 0x1000 0x0000 else bus

/-- Restores the record that the options hold, if they hold one. -/
def restoreState (o : Options) (b : Bus) : Except Failure Bus :=
  match o.state with
  | none => .ok b
  | some text =>
    match Base64.decode? (Blank.trimText text).toList with
    | none => .error .notBase64
    | some bytes => ((b.board.load bytes).mapError .refused).map fun board => { b with board }

/-- Arms the counter if the options say so, and sets the handler unless they forbid it. -/
def arm (o : Options) (b : Bus) : Bus :=
  match o.latch with
  | none => b
  | some latch =>
    let family := b.board.chip.family
    let b := b.writeAll (armWrites family latch)
    if o.acknowledge then { b with handler := handlerWrites family latch } else b

/-- The bus as a trace starts it. -/
def buildBus (files : Files) (o : Options) : Except Failure Bus := do
  let b ← newBus files o
  let b ← restoreState o b
  return arm o b

/-! ## Reporting -/

/-- Text at the right end of a field. -/
def padLeft (width : Nat) (s : String) : String :=
  "".pushn ' ' (width - s.length) ++ s

def frameLine (number : Nat) (lines : List Int) : String :=
  "frame " ++ padLeft 4 (toString number) ++ ": "
    ++ if lines.isEmpty then "no IRQ"
      else "IRQ on scanline(s) " ++ ", ".intercalate (lines.map toString)

/-- One line for each frame. -/
def frameLines (frames : List (List Int)) : List String :=
  frames.zipIdx.map fun (lines, number) => frameLine number lines

/-- The check that a record taken half-way leads to the same second half; its report. -/
def verifyState (files : Files) (o : Options) : Except Failure String := do
  let half := o.frames.toNat / 2
  let rest := o.frames.toNat - half
  let start ← buildBus files o
  let middle := (start.runFrames half).2
  let snapshot := middle.board.save
  let expected := (middle.runFrames rest).1
  let replica := ((← buildBus files o).runFrames half).2
  let board ← (replica.board.load snapshot).mapError .snapshotRefused
  let found := ({ replica with board } : Bus).runFrames rest |>.1
  if found = expected then
    return "State round-trip OK (" ++ toString snapshot.length ++ " bytes, " ++ toString rest
      ++ " frame(s) replayed)"
  else
    throw (.diverged expected found)

/-- What a trace prints, and why it stopped if it did not finish. -/
structure Transcript where
  lines : List String
  failure : Option Failure := none
deriving DecidableEq, Repr

/-- What a run from a ready bus prints before it checks the record. -/
def report (o : Options) (b : Bus) : List String :=
  let (frames, final) := b.runFrames o.frames.toNat
  ["Mapper: " ++ b.board.chip.name] ++ frameLines frames
    ++ [final.board.describe,
      toString frames.flatten.length ++ " IRQ(s) over " ++ toString o.frames.toNat ++ " frame(s)"]
    ++ if o.dumpState then [String.ofList (Base64.encode final.board.save)] else []

/-- Runs a trace. -/
def run (files : Files) (o : Options) : Transcript :=
  match buildBus files o with
  | .error e => { lines := [], failure := some e }
  | .ok b =>
    let lines := report o b
    if o.verifyState then
      match verifyState files o with
      | .ok line => { lines := lines ++ [line] }
      | .error e => { lines, failure := some e }
    else { lines }

/-- Does what a command line asks for. -/
def runArguments (files : Files) (args : List String) : Transcript :=
  match Request.ofArguments args with
  | .error e => { lines := [], failure := some (.usage e) }
  | .ok .help => { lines := usage }
  | .ok (.run o) => run files o

/-- How a failure is shown: its text, then its causes, numbered if there are several. -/
def Failure.report (e : Failure) : String :=
  match e.texts with
  | [] => "Error"
  | [text] => "Error: " ++ text
  | [text, cause] => "Error: " ++ text ++ "\n\nCaused by:\n    " ++ cause
  | text :: causes =>
    "Error: " ++ text ++ "\n\nCaused by:\n"
      ++ "\n".intercalate
        (causes.zipIdx.map fun (cause, n) => padLeft 5 (toString n) ++ ": " ++ cause)

/-- The text of the error that a trace stops with. -/
def Transcript.errorText? (t : Transcript) : Option String :=
  t.failure.map Failure.report

/-- What the program exits with: 1 after a failure. -/
def Transcript.exitCode (t : Transcript) : UInt32 :=
  if t.failure.isSome then 1 else 0

end RasterIrq.Trace
