import RasterIrq.Cartridge.Image
import RasterIrq.Proofs.Board.Run
import RasterIrq.Proofs.Fault

/-!
# Cutting an image into parts

An image is read by index and cut by slices behind a cursor that moves on. Either may leave the
image's bounds. `Cartridge.ofImageInSteps` is that procedure; it comes to `Cartridge.ofImage`, and
what it delivers makes a board.

Results:
1. `Cartridge.ofImageInSteps_eq`: no index and no slice leaves the image.
2. `Cartridge.exists_ofImage`, `Cartridge.ofImage_eq_ok`: when an image is taken, and what it then
   consists of.
3. `Cartridge.exists_board_of_ofImage`: its cartridge makes a board.
-/

namespace RasterIrq

/-- A procedure that can be refused and can fault. -/
abbrev Attempt (ε α : Type) := ExceptT ε (Except Fault) α

namespace Attempt

variable {ε α β : Type}

/-- What was refused or came out without a fault. -/
def settled (x : Except ε α) : Attempt ε α := ExceptT.mk (.ok x)

theorem fault_ok_bind (x : α) (f : α → Attempt ε β) :
    ((Except.ok x : Except Fault α) : Attempt ε α) >>= f = f x := rfl

end Attempt

namespace Header

/-- All bytes of the header, also those that no field needs. -/
def fieldsInSteps (bytes : Array UInt8) : Except Fault (List UInt8) :=
  (List.range size).mapM (Fault.item bytes)

def ofBytesInSteps (bytes : Array UInt8) : Attempt ImageError Header :=
  if bytes.size < size then throw (.tooSmall bytes.size)
  else do
    let start ← Fault.slice bytes 0 4
    if start.toList ≠ magic then throw .badMagic
    else
      let fields ← fieldsInSteps bytes
      Attempt.settled (ofFields fun i => fields.getD i 0)

theorem ofFields_congr {f g : Nat → UInt8} (h : ∀ i < size, f i = g i) :
    ofFields f = ofFields g := by
  unfold ofFields
  rw [h 4 (by decide), h 5 (by decide), h 6 (by decide), h 7 (by decide), h 8 (by decide),
    h 9 (by decide), h 10 (by decide)]

theorem ofBytesInSteps_eq (bytes : Array UInt8) :
    ofBytesInSteps bytes = Attempt.settled (ofBytes bytes) := by
  unfold ofBytesInSteps ofBytes
  by_cases hsize : bytes.size < size
  · rw [if_pos hsize, if_pos hsize]
    rfl
  have hlong : size ≤ bytes.size := Nat.not_lt.mp hsize
  have hmagic : 4 ≤ bytes.size := Nat.le_trans (by decide) hlong
  have hfields : fieldsInSteps bytes = .ok ((List.range size).map fun i => bytes.getD i 0) :=
    Fault.mapM_item fun i hi => Nat.lt_of_lt_of_le (List.mem_range.mp hi) hlong
  rw [if_neg hsize, if_neg hsize, Fault.slice_eq_ok (Nat.zero_le 4) hmagic,
    Attempt.fault_ok_bind, hfields, Attempt.fault_ok_bind]
  by_cases hstart : (bytes.extract 0 4).toList ≠ magic
  · rw [if_pos hstart, if_pos hstart]
    rfl
  rw [if_neg hstart, if_neg hstart]
  refine congrArg Attempt.settled (ofFields_congr fun i hi => ?_)
  rw [List.getD_eq_getElem?_getD, List.getElem?_map, List.getElem?_range hi]
  rfl

/-- The sizes in a header are whole units, and there is some program ROM. -/
theorem sizes_of_ofBytes {bytes : Array UInt8} {header : Header} (h : ofBytes bytes = .ok header) :
    (∃ units, 0 < units ∧ header.prgRomSize = units * prgUnit) ∧
    ∃ units, header.chrRomSize = units * chrUnit := by
  unfold ofBytes at h
  split at h
  · cases h
  split at h
  · cases h
  unfold ofFields at h
  dsimp only at h
  split at h
  · split at h
    · cases h
    · cases h
      exact ⟨⟨_, Nat.le_max_left 1 _, rfl⟩, _, rfl⟩
  · cases h
    exact ⟨⟨_, Nat.le_max_left 1 _, rfl⟩, _, rfl⟩

/-- What follows the header does not matter to it. -/
theorem ofBytes_append {start : Array UInt8} (h : start.size = size) (rest : Array UInt8) :
    ofBytes (start ++ rest) = ofBytes start := by
  have hsize : ¬ (start ++ rest).size < size := by
    rw [Array.size_append]
    omega
  have hmagic : (start ++ rest).extract 0 4 = start.extract 0 4 := by
    simp [Array.extract_append, h, size]
  rw [ofBytes, ofBytes, if_neg hsize, if_neg (Nat.not_lt.mpr (Nat.le_of_eq h.symm)), hmagic]
  refine if_congr Iff.rfl rfl (ofFields_congr fun i hi => ?_)
  rw [Array.getD_eq_getD_getElem?, Array.getD_eq_getD_getElem?, Array.getElem?_append_left (h ▸ hi)]

theorem prgRomSize_pos {bytes : Array UInt8} {header : Header} (h : ofBytes bytes = .ok header) :
    0 < header.prgRomSize := by
  obtain ⟨⟨units, hunits, hsize⟩, -⟩ := sizes_of_ofBytes h
  rw [hsize]
  exact Nat.mul_pos hunits (by decide)

end Header

namespace Cartridge

/-- Cuts the next `length` bytes off and moves the cursor behind them. -/
def cut (bytes : Array UInt8) (name : ImagePart) (length cursor : Nat) :
    Attempt ImageError (Array UInt8 × Nat) :=
  let left := bytes.size - cursor
  if left < length then throw (.truncated name length left)
  else do
    let chunk ← Fault.slice bytes cursor (cursor + length)
    return (chunk, cursor + length)

/-- A part that is not empty is cut inside the image or refused. An empty part behind the end of the
image would be out of range. -/
theorem cut_eq (bytes : Array UInt8) (name : ImagePart) {length : Nat} (h : 0 < length)
    (cursor : Nat) :
    cut bytes name length cursor
      = Attempt.settled ((part bytes name cursor length).map fun chunk =>
        (chunk, cursor + length)) := by
  rw [cut, part]
  by_cases hleft : bytes.size - cursor < length
  · simp only [if_pos hleft]
    rfl
  · have hstop : cursor + length ≤ bytes.size := by omega
    simp only [if_neg hleft]
    rw [Fault.slice_eq_ok (Nat.le_add_right cursor length) hstop]
    rfl

def cutTrainer (bytes : Array UInt8) (header : Header) (cursor : Nat) : Attempt ImageError Nat :=
  if header.hasTrainer then do
    let (_, cursor) ← cut bytes .trainer Header.trainerSize cursor
    return cursor
  else return cursor

def cutChr (bytes : Array UInt8) (header : Header) (cursor : Nat) :
    Attempt ImageError (Array UInt8) :=
  if header.chrRomSize = 0 then return Array.replicate Header.chrUnit 0
  else do
    let (chr, _) ← cut bytes .chrRom header.chrRomSize cursor
    return chr

/-- The cartridge of a header and its two memories. -/
def ofMemories (header : Header) (prg chr : Array UInt8) : Cartridge where
  mapper := header.mapper
  submapper := header.submapper
  mirroring := header.mirroring
  prg := prg
  chr := chr
  chrIsRam := header.chrRomSize = 0
  prgRamSize := header.prgRamSize

def cutMemories (bytes : Array UInt8) (header : Header) (cursor : Nat) :
    Attempt ImageError Cartridge := do
  let (prg, cursor) ← cut bytes .prgRom header.prgRomSize cursor
  let chr ← cutChr bytes header cursor
  return ofMemories header prg chr

/-- Takes an image apart: the header by index, the parts by slices. -/
def ofImageInSteps (bytes : Array UInt8) : Attempt ImageError Cartridge := do
  let header ← Header.ofBytesInSteps bytes
  if Family.isSupported header.mapper then
    let cursor ← cutTrainer bytes header Header.size
    cutMemories bytes header cursor
  else throw (.unsupportedMapper header.mapper)

/-! ## No part is out of range -/

def chrPart (bytes : Array UInt8) (header : Header) : Except ImageError (Array UInt8) :=
  if header.chrRomSize = 0 then .ok (Array.replicate Header.chrUnit 0)
  else part bytes .chrRom header.chrStart header.chrRomSize

def memories (bytes : Array UInt8) (header : Header) : Except ImageError Cartridge := do
  let prg ← part bytes .prgRom header.prgStart header.prgRomSize
  let chr ← chrPart bytes header
  return ofMemories header prg chr

theorem ofImage_eq (bytes : Array UInt8) :
    ofImage bytes = (do
      let header ← Header.ofBytes bytes
      if Family.isSupported header.mapper then
        if header.hasTrainer then
          let _ ← part bytes .trainer Header.size Header.trainerSize
          memories bytes header
        else memories bytes header
      else .error (.unsupportedMapper header.mapper)) := by
  unfold ofImage
  refine congrArg (Header.ofBytes bytes >>= ·) (funext fun header => ?_)
  unfold memories chrPart
  by_cases hempty : header.chrRomSize = 0
  · simp only [if_pos hempty]
    rfl
  · simp only [if_neg hempty]
    rfl

theorem cutTrainer_eq (bytes : Array UInt8) (header : Header) :
    cutTrainer bytes header Header.size
      = Attempt.settled (
        if header.hasTrainer then
          (part bytes .trainer Header.size Header.trainerSize).map fun _ => header.prgStart
        else .ok header.prgStart) := by
  rw [cutTrainer, Header.prgStart, cut_eq bytes .trainer (by decide) Header.size]
  cases header.hasTrainer with
  | true => cases part bytes .trainer Header.size Header.trainerSize <;> rfl
  | false => rfl

theorem cutChr_eq (bytes : Array UInt8) (header : Header) :
    cutChr bytes header header.chrStart = Attempt.settled (chrPart bytes header) := by
  rw [cutChr, chrPart]
  by_cases hempty : header.chrRomSize = 0
  · rw [if_pos hempty, if_pos hempty]
    rfl
  · rw [if_neg hempty, if_neg hempty, cut_eq bytes .chrRom (Nat.pos_of_ne_zero hempty)]
    cases part bytes .chrRom header.chrStart header.chrRomSize <;> rfl

theorem cutMemories_eq {bytes : Array UInt8} {header : Header} (h : 0 < header.prgRomSize) :
    cutMemories bytes header header.prgStart = Attempt.settled (memories bytes header) := by
  rw [cutMemories, memories, cut_eq bytes .prgRom h]
  cases part bytes .prgRom header.prgStart header.prgRomSize with
  | error e => rfl
  | ok prg =>
    show cutChr bytes header header.chrStart >>= _ = _
    rw [cutChr_eq]
    cases hchr : chrPart bytes header with
    | error e => rfl
    | ok chr => rfl

/-- Taking an image apart never leaves its bounds, whatever its bytes. -/
theorem ofImageInSteps_eq (bytes : Array UInt8) :
    ofImageInSteps bytes = Attempt.settled (ofImage bytes) := by
  rw [ofImage_eq, ofImageInSteps, Header.ofBytesInSteps_eq]
  cases hheader : Header.ofBytes bytes with
  | error e => rfl
  | ok header =>
    have hmemories : cutMemories bytes header header.prgStart
        = Attempt.settled (memories bytes header) :=
      cutMemories_eq (Header.prgRomSize_pos hheader)
    show (if Family.isSupported header.mapper = true then _ else _)
      = Attempt.settled (if Family.isSupported header.mapper = true then _ else _)
    by_cases hsupported : Family.isSupported header.mapper = true
    · rw [if_pos hsupported, if_pos hsupported, cutTrainer_eq]
      cases header.hasTrainer with
      | false => exact hmemories
      | true =>
        cases part bytes .trainer Header.size Header.trainerSize with
        | error e => rfl
        | ok trainer => exact hmemories
    · rw [if_neg hsupported, if_neg hsupported]
      rfl

/-! ## What an image consists of -/

theorem ofImage_eq_ok {bytes : Array UInt8} {cart : Cartridge} (h : ofImage bytes = .ok cart) :
    ∃ header prg chr, Header.ofBytes bytes = .ok header ∧
      Family.isSupported header.mapper = true ∧
      part bytes .prgRom header.prgStart header.prgRomSize = .ok prg ∧
      chrPart bytes header = .ok chr ∧ cart = ofMemories header prg chr := by
  rw [ofImage_eq] at h
  obtain ⟨header, hheader, htaken⟩ := exists_of_bind_eq_ok h
  by_cases hsupported : Family.isSupported header.mapper = true
  · rw [if_pos hsupported] at htaken
    have hmemories : memories bytes header = .ok cart := by
      cases htrainer : header.hasTrainer with
      | false => rwa [htrainer] at htaken
      | true =>
        rw [htrainer] at htaken
        obtain ⟨trainer, -, hrest⟩ := exists_of_bind_eq_ok htaken
        exact hrest
    obtain ⟨prg, hprg, hlater⟩ := exists_of_bind_eq_ok hmemories
    obtain ⟨chr, hchr, hcart⟩ := exists_of_bind_eq_ok hlater
    exact ⟨header, prg, chr, hheader, hsupported, hprg, hchr, (Except.ok.inj hcart).symm⟩
  · rw [if_neg hsupported] at htaken
    cases htaken

theorem size_of_part {bytes chunk : Array UInt8} {name : ImagePart} {start length : Nat}
    (h : part bytes name start length = .ok chunk) : chunk.size = length := by
  unfold part at h
  split at h
  · cases h
  · cases h
    rw [Array.size_extract]
    omega

theorem size_of_chrPart {bytes chr : Array UInt8} {header : Header}
    (h : chrPart bytes header = .ok chr) :
    chr.size = if header.chrRomSize = 0 then Header.chrUnit else header.chrRomSize := by
  unfold chrPart at h
  by_cases hempty : header.chrRomSize = 0
  · rw [if_pos hempty] at h ⊢
    cases h
    exact Array.size_replicate
  · rw [if_neg hempty] at h ⊢
    exact size_of_part h

/-- A part is taken if the image reaches to its end. -/
theorem exists_part_iff (bytes : Array UInt8) (name : ImagePart) {length : Nat} (h : 0 < length)
    (start : Nat) :
    (∃ chunk, part bytes name start length = .ok chunk) ↔ start + length ≤ bytes.size := by
  unfold part
  by_cases hleft : bytes.size - start < length
  · rw [if_pos hleft]
    constructor
    · rintro ⟨chunk, hchunk⟩
      cases hchunk
    · intro hfits
      omega
  · rw [if_neg hleft]
    exact ⟨fun _ => by omega, fun _ => ⟨_, rfl⟩⟩

/-- An image with a good header is taken if it reaches to the end of its last part. -/
theorem exists_ofImage {bytes : Array UInt8} {header : Header}
    (hheader : Header.ofBytes bytes = .ok header)
    (hsupported : Family.isSupported header.mapper = true)
    (hsize : header.chrStart + header.chrRomSize ≤ bytes.size) :
    ∃ prg chr, ofImage bytes = .ok (ofMemories header prg chr) := by
  have hprgPos := Header.prgRomSize_pos hheader
  have hprgEnd : header.prgStart + header.prgRomSize ≤ bytes.size :=
    Nat.le_trans (Nat.le_add_right _ header.chrRomSize) hsize
  obtain ⟨prg, hprg⟩ := (exists_part_iff bytes .prgRom hprgPos header.prgStart).mpr hprgEnd
  have hchr : ∃ chr, chrPart bytes header = .ok chr := by
    unfold chrPart
    by_cases hempty : header.chrRomSize = 0
    · rw [if_pos hempty]
      exact ⟨_, rfl⟩
    · rw [if_neg hempty]
      exact (exists_part_iff bytes .chrRom (Nat.pos_of_ne_zero hempty) header.chrStart).mpr hsize
  obtain ⟨chr, hchr⟩ := hchr
  have hmemories : memories bytes header = .ok (ofMemories header prg chr) := by
    rw [memories, hprg, hchr]
    rfl
  refine ⟨prg, chr, ?_⟩
  rw [ofImage_eq, hheader]
  show (if Family.isSupported header.mapper = true then _ else _) = _
  rw [if_pos hsupported]
  cases htrainer : header.hasTrainer with
  | false => exact hmemories
  | true =>
    have hstart : Header.size + Header.trainerSize ≤ bytes.size := by
      rw [Header.prgStart, htrainer, if_pos rfl] at hprgEnd
      omega
    obtain ⟨trainer, hpart⟩ :=
      (exists_part_iff bytes .trainer (by decide) Header.size).mpr hstart
    rw [hpart]
    exact hmemories

/-- The cartridge of an image makes a board. -/
theorem exists_board_of_ofImage {bytes : Array UInt8} {cart : Cartridge}
    (h : ofImage bytes = .ok cart) : ∃ b, Board.ofCartridge cart = .ok b := by
  obtain ⟨header, prg, chr, hheader, hsupported, hprg, hchr, rfl⟩ := ofImage_eq_ok h
  obtain ⟨⟨prgUnits, hpos, hprgSize⟩, chrUnits, hchrSize⟩ := Header.sizes_of_ofBytes hheader
  rw [Board.exists_ofCartridge_iff]
  refine ⟨?_, ?_, hsupported⟩
  · show 0 < prg.size ∧ prg.size % 0x2000 = 0
    rw [size_of_part hprg, hprgSize, Header.prgUnit]
    omega
  · show 0 < chr.size ∧ chr.size % 0x400 = 0
    rw [size_of_chrPart hchr, hchrSize, Header.chrUnit]
    split <;> omega

end Cartridge

end RasterIrq
