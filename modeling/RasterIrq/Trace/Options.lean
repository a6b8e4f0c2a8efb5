import RasterIrq.Text.Numeral

/-!
# Trace options

The command line of a trace. An argument is a setting, which takes the next argument as its value,
a switch, or a request for help. Arguments are read from left to right: the first one that asks for
help or cannot be taken ends the reading, and of two values for a setting the later one counts.
-/

namespace RasterIrq.Trace

structure Options where
  /-- The path of a cartridge image; without one the cartridge is blank. -/
  rom : Option String := none
  /-- The board number of a blank cartridge. -/
  mapper : UInt16 := 4
  /-- The board variant of a blank cartridge. -/
  submapper : UInt8 := 0
  frames : UInt32 := 1
  /-- The value that the interrupt counter is armed with. -/
  latch : Option UInt8 := none
  /-- Whether the handler acknowledges the interrupt and arms it again. -/
  acknowledge : Bool := true
  /-- Whether sprites come from the lower pattern table and the background from the upper one. -/
  spritesLow : Bool := false
  /-- A record to restore first, in base64. -/
  state : Option String := none
  dumpState : Bool := false
  verifyState : Bool := false
deriving DecidableEq, Repr

/-- An option with a value. -/
inductive Setting where
  | rom
  | mapper
  | submapper
  | frames
  | latch
  | state
deriving DecidableEq, Repr

/-- An option without a value. -/
inductive Switch where
  | noAck
  | spritesLow
  | dumpState
  | verifyState
deriving DecidableEq, Repr

/-- What an argument stands for. -/
inductive Argument where
  | setting (s : Setting)
  | switch (s : Switch)
  | help
  | unknown
deriving DecidableEq, Repr

namespace Setting

def all : List Setting :=
  [rom, mapper, submapper, frames, latch, state]

def flag : Setting → String
  | rom => "--rom"
  | mapper => "--mapper"
  | submapper => "--submapper"
  | frames => "--frames"
  | latch => "--latch"
  | state => "--state"

/-- What is missing when the value is. -/
def requirement : Setting → String
  | rom => "a path, e.g. --rom roms/dragon_ninja.nes"
  | mapper => "an id, e.g. --mapper 222"
  | submapper => "an id, e.g. --submapper 4"
  | frames => "an integer, e.g. --frames 60"
  | latch => "a byte, e.g. --latch 20"
  | state => "a base64 record from --dump-state"

/-- Sets the option to a written value. -/
def apply (s : Setting) (value : String) (o : Options) : Except NumeralError Options :=
  match s with
  | rom => .ok { o with rom := some value }
  | mapper => (Numeral.word16 value).map fun n => { o with mapper := n }
  | submapper => (Numeral.word8 value).map fun n => { o with submapper := n }
  | frames => (Numeral.word32 value).map fun n => { o with frames := n }
  | latch => (Numeral.word8 value).map fun n => { o with latch := some n }
  | state => .ok { o with state := some value }

end Setting

namespace Switch

def all : List Switch :=
  [noAck, spritesLow, dumpState, verifyState]

def flag : Switch → String
  | noAck => "--no-ack"
  | spritesLow => "--sprites-low"
  | dumpState => "--dump-state"
  | verifyState => "--verify-state"

def apply (s : Switch) (o : Options) : Options :=
  match s with
  | noAck => { o with acknowledge := false }
  | spritesLow => { o with spritesLow := true }
  | dumpState => { o with dumpState := true }
  | verifyState => { o with verifyState := true }

end Switch

def Argument.ofText (arg : String) : Argument :=
  match Setting.all.find? fun s => s.flag == arg with
  | some s => .setting s
  | none =>
    match Switch.all.find? fun s => s.flag == arg with
    | some s => .switch s
    | none => if arg = "--help" ∨ arg = "-h" then .help else .unknown

/-- Why a command line is refused. -/
inductive UsageError where
  | unknownArgument (arg : String)
  | missingValue (s : Setting)
  | invalidValue (s : Setting) (value : String) (cause : NumeralError)
  | noFrames
deriving DecidableEq, Repr

/-- The error's text, then the text of its cause if it has one. -/
def UsageError.texts : UsageError → List String
  | unknownArgument arg => ["unknown argument: " ++ arg]
  | missingValue s => [s.flag ++ " requires " ++ s.requirement]
  | invalidValue s value cause => ["invalid " ++ s.flag ++ " value: " ++ value, cause.message]
  | noFrames => ["--frames must be at least 1"]

/-- What a command line asks for. -/
inductive Request where
  | help
  | run (o : Options)
deriving DecidableEq, Repr

namespace Request

/-- Reads arguments on top of the options set so far. -/
def read (o : Options) : List String → Except UsageError Request
  | [] => if o.frames = 0 then .error .noFrames else .ok (run o)
  | arg :: rest =>
    match Argument.ofText arg with
    | .help => .ok help
    | .unknown => .error (.unknownArgument arg)
    | .switch s => read (s.apply o) rest
    | .setting s =>
      match rest with
      | [] => .error (.missingValue s)
      | value :: rest =>
        match s.apply value o with
        | .ok o => read o rest
        | .error cause => .error (.invalidValue s value cause)

/-- Reads a command line. -/
def ofArguments (args : List String) : Except UsageError Request :=
  read {} args

end Request

/-- The lines of the help text. -/
def usage : List String := [
  "irq_trace",
  "",
  "Usage:",
  "cargo run --release --bin irq_trace -- [options]",
  "",
  "Options:",
  "--rom <path>          iNES/NES 2.0 image (default: blank cartridge)",
  "--mapper <id>         Mapper for the blank cartridge, 4 or 222 (default 4)",
  "--submapper <id>      Submapper for the blank cartridge (default 0)",
  "--frames <n>          Frames to render (default 1)",
  "--latch <n>           IRQ latch (MMC3) or start value (Mapper 222)",
  "--no-ack              Leave the IRQ asserted instead of re-arming it",
  "--sprites-low         Fetch sprites from $0000 and background from $1000",
  "--state <base64>      Restore a mapper state before rendering",
  "--dump-state          Print the final mapper state as base64",
  "--verify-state        Replay the run from a mid-run snapshot and compare",
  "-h, --help            Show this help",
  "",
  "Set RUST_LOG=debug or RUST_LOG=trace for per-edge detail.",
  ""]

end RasterIrq.Trace
