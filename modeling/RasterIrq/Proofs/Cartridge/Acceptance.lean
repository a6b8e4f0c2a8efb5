import RasterIrq.Proofs.Cartridge.Parts

/-!
# Which images are accepted

What an image must look like, in numbers read off its bytes, and what the cartridge in it is. The
header is written in digits of 4 bits and single bits; `Image` says which of them make a size, the
board number, or a place in the image. An image is accepted if it is long enough for its header,
its header is good, and the last of its parts ends in it. What comes after that is not looked at.

Results:
1. `Header.ofBytes_eq`: what a header says, or the first thing that is wrong with it.
2. `Cartridge.ofImage_of_ofBytes`: an image with a good header, or the first part that is cut short.
3. `Cartridge.ofImage_outcome`: which images are accepted, what is in them, and why others are not.
-/

namespace RasterIrq

/-! ## What an image says -/

namespace Image

variable (bytes : Array UInt8)

/-- The byte at an offset, as a number. -/
def byte (i : Nat) : Nat := (bytes.getD i 0).toNat

/-- Whether the header has the newer form. -/
def isNes2 : Bool := byte bytes 7 / 4 % 4 = 2

/-- In the newer form, a high digit of 15 means that a size is not a number of units. -/
def hasExponent : Bool := isNes2 bytes && (byte bytes 9 % 16 = 15 || byte bytes 9 / 16 = 15)

/-- The board number has two digits, and three in the newer form. -/
def number : Nat :=
  byte bytes 6 / 16 + byte bytes 7 / 16 * 16 + if isNes2 bytes then byte bytes 8 % 16 * 256 else 0

def submapper : Nat := if isNes2 bytes then byte bytes 8 / 16 else 0

def mirroring : Mirroring :=
  if byte bytes 6 / 8 % 2 = 1 then .fourScreen
  else if byte bytes 6 % 2 = 1 then .vertical
  else .horizontal

def trainerSize : Nat := if byte bytes 6 / 4 % 2 = 1 then 512 else 0

/-- Units of 16 KiB, one at least. -/
def prgSize : Nat :=
  max 1 (byte bytes 4 + if isNes2 bytes then byte bytes 9 % 16 * 256 else 0) * 0x4000

/-- Units of 8 KiB. -/
def chrSize : Nat :=
  (byte bytes 5 + if isNes2 bytes then byte bytes 9 / 16 * 256 else 0) * 0x2000

def prgRamSize : Nat :=
  if isNes2 bytes then if byte bytes 10 % 16 = 0 then 0 else 64 * 2 ^ (byte bytes 10 % 16)
  else max 1 (byte bytes 8) * 0x2000

/-! The parts of an image follow its header one after the other. -/

def prgStart : Nat := 16 + trainerSize bytes
def chrStart : Nat := prgStart bytes + prgSize bytes

/-- Where the last part ends. -/
def stop : Nat := chrStart bytes + chrSize bytes

/-- The first four bytes are those that every image starts with. -/
def HasMagic : Prop := bytes.extract 0 4 = #[0x4E, 0x45, 0x53, 0x1A]

instance : Decidable (HasMagic bytes) := inferInstanceAs (Decidable (_ = _))

/-- The image starts with the header of a board that is known here. -/
structure HasHeader : Prop where
  size_le : 16 ≤ bytes.size
  magic : HasMagic bytes
  no_exponent : hasExponent bytes = false
  known : number bytes = 4 ∨ number bytes = 222

/-- The first thing that is wrong with an image that has no header of a known board. -/
def headerFault : ImageError :=
  if bytes.size < 16 then .tooSmall bytes.size
  else if ¬ HasMagic bytes then .badMagic
  else if hasExponent bytes then .exponentSize
  else .unsupportedMapper (UInt16.ofNat (number bytes))

/-- The first part that an image with a header is too short for. -/
def cutShort : ImageError :=
  if bytes.size < prgStart bytes then .truncated .trainer 512 (bytes.size - 16)
  else if bytes.size < chrStart bytes then
    .truncated .prgRom (prgSize bytes) (bytes.size - prgStart bytes)
  else .truncated .chrRom (chrSize bytes) (bytes.size - chrStart bytes)

/-- The header of an image, unless a size has an exponent. -/
def header : Header where
  mapper := UInt16.ofNat (number bytes)
  submapper := UInt8.ofNat (submapper bytes)
  mirroring := mirroring bytes
  hasTrainer := byte bytes 6 / 4 % 2 = 1
  prgRomSize := prgSize bytes
  chrRomSize := chrSize bytes
  prgRamSize := prgRamSize bytes

end Image

namespace Header

/-! ## Digits and bits -/

theorem and_mask (n i k : Nat) : n &&& (2 ^ k - 1) * 2 ^ i = n / 2 ^ i % 2 ^ k * 2 ^ i := by
  refine Nat.eq_of_testBit_eq fun j => ?_
  rw [Nat.testBit_and, Nat.testBit_mul_two_pow, Nat.testBit_mul_two_pow, Nat.testBit_mod_two_pow,
    Nat.testBit_two_pow_sub_one, Nat.testBit_div_two_pow]
  by_cases h : i ≤ j
  · simp [h, Bool.and_comm]
  · simp [h]

/-- `k` bits of a byte from bit `i` on. -/
theorem toNat_and_mask (b : UInt8) (i k : Nat) {mask : UInt8}
    (h : mask.toNat = (2 ^ k - 1) * 2 ^ i) :
    (b &&& mask).toNat = b.toNat / 2 ^ i % 2 ^ k * 2 ^ i := by
  rw [UInt8.toNat_and, h, and_mask]

theorem toNat_low (b : UInt8) : (b &&& 0x0F).toNat = b.toNat % 16 := by
  rw [toNat_and_mask b 0 4 rfl]
  omega

theorem toNat_high (b : UInt8) : (b >>> 4).toNat = b.toNat / 16 := by
  rw [UInt8.toNat_shiftRight]
  exact Nat.shiftRight_eq_div_pow b.toNat 4

theorem bit_eq (b : UInt8) (i : Nat) {mask : UInt8} (h : mask.toNat = 2 ^ i) :
    (b &&& mask != 0) = decide (b.toNat / 2 ^ i % 2 = 1) := by
  have hmask : (b &&& mask).toNat = b.toNat / 2 ^ i % 2 * 2 ^ i :=
    toNat_and_mask b i 1 (h.trans (Nat.one_mul _).symm)
  have hpos : 0 < 2 ^ i := Nat.two_pow_pos i
  rw [Bool.eq_iff_iff, bne_iff_ne, decide_eq_true_iff, ne_eq, ← UInt8.toNat_inj, hmask]
  show ¬ b.toNat / 2 ^ i % 2 * 2 ^ i = 0 ↔ _
  rw [Nat.mul_eq_zero]
  omega

theorem isNes2_eq (flags7 : UInt8) : isNes2 flags7 = decide (flags7.toNat / 4 % 4 = 2) := by
  have hmask : (flags7 &&& 0x0C).toNat = flags7.toNat / 4 % 4 * 4 := toNat_and_mask flags7 2 2 rfl
  rw [isNes2, Bool.eq_iff_iff, beq_iff_eq, decide_eq_true_iff, ← UInt8.toNat_inj, hmask]
  show _ = 8 ↔ _
  omega

/-- The two digits of the board number that both forms have. -/
theorem toNat_lowNumber (flags6 flags7 : UInt8) :
    ((flags6.toUInt16 >>> 4) ||| (flags7.toUInt16 &&& 0xF0)).toNat
      = flags6.toNat / 16 + flags7.toNat / 16 * 16 := by
  have hlt6 := flags6.toNat_lt
  have hlt7 := flags7.toNat_lt
  have hhigh : flags7.toNat &&& 0xF0 = flags7.toNat / 16 % 16 * 16 := and_mask flags7.toNat 4 4
  rw [UInt16.toNat_or, UInt16.toNat_shiftRight, UInt16.toNat_and, UInt8.toNat_toUInt16,
    UInt8.toNat_toUInt16]
  show flags6.toNat >>> 4 ||| flags7.toNat &&& 0xF0 = _
  rw [hhigh, Nat.shiftRight_eq_div_pow, Nat.or_comm, Nat.mul_comm,
    ← Nat.two_pow_add_eq_or_of_lt (i := 4) (by omega)]
  omega

/-- The third digit. -/
theorem toNat_highNumber {low : UInt16} (hlow : low.toNat < 256) (byte8 : UInt8) :
    (low ||| (byte8.toUInt16 &&& 0x0F) <<< 8).toNat = low.toNat + byte8.toNat % 16 * 256 := by
  have hdigit : byte8.toNat &&& 0x0F = byte8.toNat % 16 :=
    Nat.and_two_pow_sub_one_eq_mod byte8.toNat 4
  have hshift : byte8.toNat % 16 * 256 < 2 ^ 16 := by omega
  rw [UInt16.toNat_or, UInt16.toNat_shiftLeft, UInt16.toNat_and, UInt8.toNat_toUInt16]
  show low.toNat ||| (byte8.toNat &&& 0x0F) <<< 8 % 2 ^ 16 = _
  rw [hdigit, Nat.shiftLeft_eq, Nat.mod_eq_of_lt hshift, Nat.or_comm, Nat.mul_comm,
    ← Nat.two_pow_add_eq_or_of_lt (i := 8) hlow]
  omega

theorem mirroringOf_eq (flags6 : UInt8) :
    mirroringOf flags6
      = if flags6.toNat / 8 % 2 = 1 then .fourScreen
        else if flags6.toNat % 2 = 1 then .vertical
        else .horizontal := by
  have hfour : (flags6 &&& 0x08 != 0) = decide (flags6.toNat / 8 % 2 = 1) := bit_eq flags6 3 rfl
  have hvertical : (flags6 &&& 0x01 != 0) = decide (flags6.toNat / 1 % 2 = 1) :=
    bit_eq flags6 0 rfl
  rw [mirroringOf, hfour, hvertical, Nat.div_one]
  simp only [decide_eq_true_eq]

/-! ## The header -/

section

open Image

theorem ofFields_eq (bytes : Array UInt8) :
    ofFields (fun i => bytes.getD i 0)
      = if hasExponent bytes then .error .exponentSize else .ok (header bytes) := by
  have hlow := toNat_lowNumber (bytes.getD 6 0) (bytes.getD 7 0)
  have hform : Header.isNes2 (bytes.getD 7 0) = Image.isNes2 bytes := isNes2_eq _
  have htrainer : (bytes.getD 6 0 &&& 0x04 != 0) = decide (byte bytes 6 / 4 % 2 = 1) :=
    bit_eq (bytes.getD 6 0) 2 rfl
  unfold ofFields
  dsimp only
  rw [hform, mirroringOf_eq, htrainer]
  cases hnes2 : Image.isNes2 bytes with
  | true =>
    have hexponent : hasExponent bytes = decide
        ((bytes.getD 9 0 &&& 0x0F).toNat = 0x0F ∨ (bytes.getD 9 0 >>> 4).toNat = 0x0F) := by
      rw [hasExponent, hnes2, toNat_low, toNat_high, Bool.true_and]
      exact (Bool.decide_or _ _).symm
    have hlt : (bytes.getD 6 0).toNat / 16 + (bytes.getD 7 0).toNat / 16 * 16 < 256 := by
      have hlt6 := (bytes.getD 6 0).toNat_lt
      have hlt7 := (bytes.getD 7 0).toNat_lt
      omega
    have hnumber := toNat_highNumber (hlow ▸ hlt) (bytes.getD 8 0)
    rw [hlow] at hnumber
    rw [if_pos rfl, hexponent]
    simp only [decide_eq_true_eq]
    refine if_congr Iff.rfl rfl (congrArg Except.ok ?_)
    rw [header, number, Image.submapper, prgSize, chrSize, Image.prgRamSize, hnes2, if_pos rfl,
      if_pos rfl, if_pos rfl, if_pos rfl, if_pos rfl, toNat_low, toNat_low, toNat_high,
      Nat.add_comm (_ * 256), Nat.add_comm (_ * 256), Header.mk.injEq]
    refine ⟨?_, ?_, rfl, rfl, rfl, rfl, ?_⟩
    · exact UInt16.ofNat_toNat.symm.trans (congrArg UInt16.ofNat hnumber)
    · exact UInt8.ofNat_toNat.symm.trans (congrArg UInt8.ofNat (toNat_high _))
    · rw [Nat.shiftLeft_eq]
      rfl
  | false =>
    have hexponent : hasExponent bytes = false := by
      rw [hasExponent, hnes2, Bool.false_and]
    rw [if_neg Bool.false_ne_true, hexponent, if_neg Bool.false_ne_true]
    refine congrArg Except.ok ?_
    rw [header, number, Image.submapper, prgSize, chrSize, Image.prgRamSize, hnes2,
      if_neg Bool.false_ne_true, if_neg Bool.false_ne_true, if_neg Bool.false_ne_true,
      if_neg Bool.false_ne_true, if_neg Bool.false_ne_true, Header.mk.injEq]
    refine ⟨?_, rfl, rfl, rfl, rfl, rfl, rfl⟩
    exact UInt16.ofNat_toNat.symm.trans (congrArg UInt16.ofNat hlow)

/-- What a header says, or the first thing that is wrong with it. -/
theorem ofBytes_eq (bytes : Array UInt8) :
    ofBytes bytes
      = if bytes.size < 16 then .error (.tooSmall bytes.size)
        else if ¬ HasMagic bytes then .error .badMagic
        else if hasExponent bytes then .error .exponentSize
        else .ok (header bytes) := by
  have hmagic : (bytes.extract 0 4).toList ≠ magic ↔ ¬ HasMagic bytes :=
    not_congr ⟨fun h => Array.ext' h, fun h => congrArg Array.toList h⟩
  rw [ofBytes, ofFields_eq]
  exact if_congr Iff.rfl rfl (if_congr hmagic rfl rfl)

theorem ofBytes_of_hasHeader {bytes : Array UInt8} (h : HasHeader bytes) :
    ofBytes bytes = .ok (header bytes) := by
  rw [ofBytes_eq, if_neg (Nat.not_lt.mpr h.size_le), if_neg (not_not.mpr h.magic), h.no_exponent]
  rfl

/-- The board number fits in a word. -/
theorem toNat_number (bytes : Array UInt8) : (header bytes).mapper.toNat = number bytes := by
  have hlt6 := (bytes.getD 6 0).toNat_lt
  have hlt7 := (bytes.getD 7 0).toNat_lt
  refine UInt16.toNat_ofNat_of_lt' ?_
  show _ < 2 ^ 16
  unfold number byte
  split <;> omega

theorem toNat_submapper (bytes : Array UInt8) :
    (header bytes).submapper.toNat = Image.submapper bytes := by
  have hlt8 := (bytes.getD 8 0).toNat_lt
  refine UInt8.toNat_ofNat_of_lt' ?_
  show _ < 2 ^ 8
  unfold Image.submapper byte
  split <;> omega

theorem isSupported_header (bytes : Array UInt8) :
    Family.isSupported (header bytes).mapper = true ↔ number bytes = 4 ∨ number bytes = 222 := by
  rw [Family.isSupported_iff, ← toNat_number, ← UInt16.toNat_inj, ← UInt16.toNat_inj]
  rfl

theorem prgStart_header (bytes : Array UInt8) :
    (header bytes).prgStart = Image.prgStart bytes := by
  rw [Header.prgStart, Image.prgStart, Image.trainerSize, header]
  simp only [decide_eq_true_eq]
  rfl

theorem chrStart_header (bytes : Array UInt8) :
    (header bytes).chrStart = Image.chrStart bytes := by
  rw [Header.chrStart, Image.chrStart, prgStart_header]
  rfl

end

theorem size_le_of_ofBytes {bytes : Array UInt8} {header : Header}
    (h : ofBytes bytes = .ok header) : 16 ≤ bytes.size := by
  rw [ofBytes] at h
  split at h
  · cases h
  · next hsize => exact Nat.not_lt.mp hsize

end Header

namespace Cartridge

/-! ## The parts -/

theorem part_eq_of_le {bytes : Array UInt8} {start : Nat} (h : start ≤ bytes.size)
    (name : ImagePart) (length : Nat) :
    part bytes name start length
      = if bytes.size < start + length then .error (.truncated name length (bytes.size - start))
        else .ok (bytes.extract start (start + length)) := by
  rw [part]
  exact if_congr (Nat.sub_lt_iff_lt_add' h) rfl rfl

/-- The memories of an image that has its trainer, if it has one to have. -/
theorem memories_eq {bytes : Array UInt8} {header : Header} (h : header.prgStart ≤ bytes.size) :
    memories bytes header
      = if bytes.size < header.chrStart then
          .error (.truncated .prgRom header.prgRomSize (bytes.size - header.prgStart))
        else if bytes.size < header.chrStart + header.chrRomSize then
          .error (.truncated .chrRom header.chrRomSize (bytes.size - header.chrStart))
        else .ok (ofMemories header (bytes.extract header.prgStart header.chrStart)
          (if header.chrRomSize = 0 then Array.replicate Header.chrUnit 0
            else bytes.extract header.chrStart (header.chrStart + header.chrRomSize))) := by
  rw [memories, part_eq_of_le h]
  show ((if bytes.size < header.chrStart then _ else _) >>= _) = _
  by_cases hprg : bytes.size < header.chrStart
  · rw [if_pos hprg, if_pos hprg]
    rfl
  · rw [if_neg hprg, if_neg hprg]
    show (chrPart bytes header >>= fun chr => .ok (ofMemories header _ chr)) = _
    rw [chrPart, part_eq_of_le (Nat.not_lt.mp hprg)]
    by_cases hempty : header.chrRomSize = 0
    · rw [if_pos hempty, if_pos hempty, hempty, Nat.add_zero, if_neg hprg]
      rfl
    · rw [if_neg hempty, if_neg hempty]
      split
      · rfl
      · rfl

/-- An image with a good header is accepted, or the first part that is cut short is named. -/
theorem ofImage_of_ofBytes {bytes : Array UInt8} {header : Header}
    (hheader : Header.ofBytes bytes = .ok header)
    (hsupported : Family.isSupported header.mapper = true) :
    ofImage bytes
      = if bytes.size < header.prgStart then
          .error (.truncated .trainer Header.trainerSize (bytes.size - Header.size))
        else memories bytes header := by
  have hsize : Header.size ≤ bytes.size := Header.size_le_of_ofBytes hheader
  rw [ofImage_eq, hheader]
  show (if Family.isSupported header.mapper = true then _ else _) = _
  rw [if_pos hsupported]
  cases htrainer : header.hasTrainer with
  | false =>
    have hstart : header.prgStart = Header.size := by rw [Header.prgStart, htrainer]; rfl
    rw [hstart, if_neg (Nat.not_lt.mpr hsize)]
    rfl
  | true =>
    have hstart : header.prgStart = Header.size + Header.trainerSize := by
      rw [Header.prgStart, htrainer]
      rfl
    rw [if_pos rfl, part_eq_of_le hsize, hstart]
    split
    · rfl
    · rfl

theorem ofImage_of_fits {bytes : Array UInt8} {header : Header}
    (hheader : Header.ofBytes bytes = .ok header)
    (hsupported : Family.isSupported header.mapper = true)
    (hfits : header.chrStart + header.chrRomSize ≤ bytes.size) :
    ofImage bytes
      = .ok (ofMemories header (bytes.extract header.prgStart header.chrStart)
        (if header.chrRomSize = 0 then Array.replicate Header.chrUnit 0
          else bytes.extract header.chrStart (header.chrStart + header.chrRomSize))) := by
  have hprg : header.prgStart ≤ header.chrStart := Nat.le_add_right _ _
  rw [ofImage_of_ofBytes hheader hsupported, if_neg (by omega), memories_eq (by omega),
    if_neg (by omega), if_neg (by omega)]

/-- What an image with the header of a known board is. -/
theorem ofImage_of_hasHeader {bytes : Array UInt8} (h : Image.HasHeader bytes) :
    ofImage bytes
      = if bytes.size < Image.stop bytes then .error (Image.cutShort bytes)
        else .ok (ofMemories (Image.header bytes)
          (bytes.extract (Image.prgStart bytes) (Image.chrStart bytes))
          (if Image.chrSize bytes = 0 then Array.replicate 0x2000 0
            else bytes.extract (Image.chrStart bytes) (Image.stop bytes))) := by
  have hsupported := (Header.isSupported_header bytes).mpr h.known
  have hprgStart : Image.prgStart bytes ≤ Image.chrStart bytes := Nat.le_add_right _ _
  have hchrStart : Image.chrStart bytes ≤ Image.stop bytes := Nat.le_add_right _ _
  rw [ofImage_of_ofBytes (Header.ofBytes_of_hasHeader h) hsupported, Header.prgStart_header,
    Image.cutShort]
  by_cases htrainer : bytes.size < Image.prgStart bytes
  · rw [if_pos htrainer, if_pos (by omega), if_pos htrainer]
    rfl
  rw [if_neg htrainer, memories_eq (by rw [Header.prgStart_header]; omega),
    Header.prgStart_header, Header.chrStart_header, if_neg htrainer]
  by_cases hprg : bytes.size < Image.chrStart bytes
  · rw [if_pos hprg, if_pos (by omega), if_pos hprg]
    rfl
  rw [if_neg hprg, if_neg hprg]
  rfl

theorem hasHeader_of_ofImage {bytes : Array UInt8} {cart : Cartridge}
    (h : ofImage bytes = .ok cart) : Image.HasHeader bytes := by
  obtain ⟨header, -, -, hheader, hsupported, -⟩ := ofImage_eq_ok h
  have hsize := Header.size_le_of_ofBytes hheader
  rw [Header.ofBytes_eq, if_neg (Nat.not_lt.mpr hsize)] at hheader
  split at hheader
  · cases hheader
  · next hmagic =>
    split at hheader
    · cases hheader
    · next hexponent =>
      cases hheader
      exact ⟨hsize, not_not.mp hmagic, Bool.eq_false_iff.mpr hexponent,
        (Header.isSupported_header bytes).mp hsupported⟩

theorem ofImage_of_not_hasHeader {bytes : Array UInt8} (h : ¬ Image.HasHeader bytes) :
    ofImage bytes = .error (Image.headerFault bytes) := by
  rw [ofImage_eq, Header.ofBytes_eq, Image.headerFault]
  by_cases hsize : bytes.size < 16
  · rw [if_pos hsize, if_pos hsize]
    rfl
  rw [if_neg hsize, if_neg hsize]
  by_cases hmagic : ¬ Image.HasMagic bytes
  · rw [if_pos hmagic, if_pos hmagic]
    rfl
  rw [if_neg hmagic, if_neg hmagic]
  cases hexponent : Image.hasExponent bytes with
  | true => rfl
  | false =>
    have hunknown : ¬ Family.isSupported (Image.header bytes).mapper = true := fun hsupported =>
      h ⟨Nat.not_lt.mp hsize, not_not.mp hmagic, hexponent,
        (Header.isSupported_header bytes).mp hsupported⟩
    exact if_neg hunknown

/-! ## What comes after the last part -/

theorem extract_extract_append {bytes : Array UInt8} {start length stop : Nat}
    (hlength : length ≤ stop) (hstop : stop ≤ bytes.size) (rest : Array UInt8) :
    (bytes.extract 0 stop ++ rest).extract start length = bytes.extract start length := by
  have hsize : (bytes.extract 0 stop).size = stop := by
    rw [Array.size_extract]
    omega
  have hrest : length - (bytes.extract 0 stop).size = 0 := by omega
  rw [Array.extract_append, hrest, Array.extract_zero, Array.append_empty, Array.extract_extract,
    Nat.zero_add, Nat.zero_add, Nat.min_eq_left hlength]

theorem ofBytes_extract_append {bytes : Array UInt8} {stop : Nat} (h : 16 ≤ stop)
    (hstop : stop ≤ bytes.size) (rest : Array UInt8) :
    Header.ofBytes (bytes.extract 0 stop ++ rest) = Header.ofBytes bytes := by
  have hsize : (bytes.extract 0 16).size = Header.size := by
    rw [Array.size_extract, Header.size]
    omega
  have hfront : bytes.extract 0 stop = bytes.extract 0 16 ++ bytes.extract 16 stop := by
    rw [Array.extract_append_extract, Nat.zero_min, Nat.max_eq_right h]
  have hall : bytes = bytes.extract 0 16 ++ bytes.extract 16 bytes.size := by
    rw [Array.extract_append_extract, Nat.zero_min, Nat.max_eq_right (Nat.le_trans h hstop),
      Array.extract_size]
  have hbytes : Header.ofBytes bytes = Header.ofBytes (bytes.extract 0 16) :=
    (congrArg Header.ofBytes hall).trans (Header.ofBytes_append hsize _)
  rw [hfront, Array.append_assoc, Header.ofBytes_append hsize, hbytes]

/-- What comes after the last part can be replaced by anything. -/
theorem ofImage_extract_append {bytes : Array UInt8} (h : Image.HasHeader bytes)
    (hstop : Image.stop bytes ≤ bytes.size) (rest : Array UInt8) :
    ofImage (bytes.extract 0 (Image.stop bytes) ++ rest) = ofImage bytes := by
  have hsupported := (Header.isSupported_header bytes).mpr h.known
  have hheader := Header.ofBytes_of_hasHeader h
  have hstart : 16 ≤ Image.prgStart bytes := Nat.le_add_right _ _
  have hprg : Image.prgStart bytes ≤ Image.chrStart bytes := Nat.le_add_right _ _
  have hchr : Image.chrStart bytes ≤ Image.stop bytes := Nat.le_add_right _ _
  have hend : (Image.header bytes).chrStart + (Image.header bytes).chrRomSize
      = Image.stop bytes := by
    rw [Header.chrStart_header]
    rfl
  have hheader' : Header.ofBytes (bytes.extract 0 (Image.stop bytes) ++ rest)
      = .ok (Image.header bytes) :=
    (ofBytes_extract_append (by omega) hstop rest).trans hheader
  have hstop' : Image.stop bytes ≤ (bytes.extract 0 (Image.stop bytes) ++ rest).size := by
    rw [Array.size_append, Array.size_extract]
    omega
  rw [ofImage_of_fits hheader' hsupported (hend ▸ hstop'),
    ofImage_of_fits hheader hsupported (hend ▸ hstop), hend, Header.chrStart_header,
    extract_extract_append hchr hstop, extract_extract_append (Nat.le_refl _) hstop]

/-- An image is accepted if it starts with the header of a known board and reaches to the end of its
last part. The cartridge holds the parts, cut where the sizes before them say, and what the header
says; bytes behind the last part do not matter. Without a good header the first thing that is wrong
with it is reported, and of parts that do not fit the first, with its size and what is left. -/
theorem ofImage_outcome (bytes : Array UInt8) :
    ((∃ cart, ofImage bytes = .ok cart) ↔
      Image.HasHeader bytes ∧ Image.stop bytes ≤ bytes.size) ∧
    (∀ cart, ofImage bytes = .ok cart →
      cart.mapper.toNat = Image.number bytes ∧
      cart.submapper.toNat = Image.submapper bytes ∧
      cart.mirroring = Image.mirroring bytes ∧
      cart.prg = bytes.extract (Image.prgStart bytes) (Image.chrStart bytes) ∧
      cart.chr = (if Image.chrSize bytes = 0 then Array.replicate 0x2000 0
        else bytes.extract (Image.chrStart bytes) (Image.stop bytes)) ∧
      (cart.chrIsRam = true ↔ Image.chrSize bytes = 0) ∧
      cart.prgRamSize = Image.prgRamSize bytes ∧
      ∀ rest, ofImage (bytes.extract 0 (Image.stop bytes) ++ rest) = .ok cart) ∧
    (Image.HasHeader bytes → bytes.size < Image.stop bytes →
      ofImage bytes = .error (Image.cutShort bytes)) ∧
    (¬ Image.HasHeader bytes → ofImage bytes = .error (Image.headerFault bytes)) := by
  have hstop : ∀ {cart}, ofImage bytes = .ok cart → ¬ bytes.size < Image.stop bytes := by
    intro cart hcart hshort
    rw [ofImage_of_hasHeader (hasHeader_of_ofImage hcart), if_pos hshort] at hcart
    cases hcart
  refine ⟨⟨?_, ?_⟩, ?_, ?_, ofImage_of_not_hasHeader⟩
  · rintro ⟨cart, hcart⟩
    exact ⟨hasHeader_of_ofImage hcart, Nat.not_lt.mp (hstop hcart)⟩
  · rintro ⟨hheader, hsize⟩
    exact ⟨_, (ofImage_of_hasHeader hheader).trans (if_neg (Nat.not_lt.mpr hsize))⟩
  · intro cart hcart
    have hheader := hasHeader_of_ofImage hcart
    have hsize := hstop hcart
    have hrest := ofImage_extract_append hheader (Nat.not_lt.mp hsize)
    rw [hcart] at hrest
    rw [ofImage_of_hasHeader hheader, if_neg hsize] at hcart
    cases hcart
    exact ⟨Header.toNat_number bytes, Header.toNat_submapper bytes, rfl, rfl, rfl,
      decide_eq_true_iff, rfl, hrest⟩
  · intro hheader hshort
    rw [ofImage_of_hasHeader hheader, if_pos hshort]

/-- An image of a Mapper 222 board in the newer form, with 4 bytes of the trainer that its header
promises. -/
theorem ofImage_outcome_short_trainer :
    let bytes := #[0x4E, 0x45, 0x53, 0x1A, 2, 1, 0xE4, 0xD8, 0, 0, 0, 0, 0, 0, 0, 0, 1, 2, 3, 4]
    Image.HasHeader bytes ∧ bytes.size < Image.stop bytes ∧
      ofImage bytes = .error (.truncated .trainer 512 4) := by
  intro bytes
  have hheader : Image.HasHeader bytes := ⟨by decide, by decide, by decide, by decide⟩
  have hshort : bytes.size < Image.stop bytes := by decide
  refine ⟨hheader, hshort, ((ofImage_outcome bytes).2.2.1 hheader hshort).trans ?_⟩
  exact congrArg Except.error (by decide : Image.cutShort bytes = .truncated .trainer 512 4)

end Cartridge

end RasterIrq
