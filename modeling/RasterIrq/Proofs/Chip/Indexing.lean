import RasterIrq.Chip
import RasterIrq.Proofs.Board.Loading
import RasterIrq.Proofs.Fault

/-!
# Registers by index

A chip finds a bank in three steps: an address gives a window's number, the number indexes a
register or a table, and the fixed windows go back from the number of banks. A port write and a
record put values into registers by index. Here each of these steps is one that can fault.

Results:
1. `Chip.prgBankInSteps_eq`, `Chip.chrBankInSteps_eq`: the bank of every window is found.
2. `Chip.writeInSteps_eq`: every port write finds its register.
3. `Chip.restoreInSteps_eq`: a record of the chip's layout fills the registers.
-/

namespace RasterIrq

namespace Fault

variable {α : Type} {n : Nat}

theorem item_toArray_eq_ok (xs : Vector α n) {i : Nat} (h : i < n) :
    item xs.toArray i = .ok xs[i] := by
  have hi : i < xs.toArray.size := by rwa [xs.size_toArray]
  rw [item_eq_ok hi, Vector.getElem_toArray]

end Fault

namespace Window

/-- The low bits of an address are its offset into a program window. -/
theorem and_prgMask (addr : UInt16) : addr.toNat &&& 0x1FFF = addr.toNat % prgSize :=
  Nat.and_two_pow_sub_one_eq_mod addr.toNat 13

theorem and_chrMask (addr : UInt16) : addr.toNat &&& 0x3FF = addr.toNat % chrSize :=
  Nat.and_two_pow_sub_one_eq_mod addr.toNat 10

/-- The number of a character window, from an address that repeats every $2000. -/
def chrSlot (addr : UInt16) : Nat :=
  (addr.toNat &&& 0x1FFF) / chrSize

theorem chrSlot_eq (addr : UInt16) : chrSlot addr = (chr addr).val := by
  rw [chrSlot, and_prgMask]
  show addr.toNat % 0x2000 / 0x400 = addr.toNat / 0x400 % 8
  omega

end Window

/-! ## The MMC3 -/

namespace Mmc3

def registerInSteps (r : Mmc3) (n : Nat) : Except Fault UInt8 :=
  Fault.item r.banks.toArray n

theorem registerInSteps_eq (r : Mmc3) {n : Nat} (h : n < 8) :
    r.registerInSteps n = .ok (r.register n) := by
  rw [registerInSteps, Fault.item_toArray_eq_ok r.banks h, r.register_of_lt h]

/-- The number of the last bank is worked out for every window. -/
def prgBankInSteps (r : Mmc3) (count : Nat) (addr : UInt16) : Except Fault Nat := do
  let last ← Fault.sub count 1
  let low ← r.registerInSteps 6
  let middle ← r.registerInSteps 7
  match (Window.prg addr).val with
  | 0 => return if r.prgSwapped then count - 2 else low.toNat
  | 1 => return middle.toNat
  | 2 => return if r.prgSwapped then low.toNat else count - 2
  | _ => return last

theorem prgBankInSteps_eq (r : Mmc3) {count : Nat} (h : 0 < count) (addr : UInt16) :
    r.prgBankInSteps count addr = .ok (r.prgBank count (Window.prg addr)) := by
  rw [prgBankInSteps, Fault.sub_eq_ok h, r.registerInSteps_eq (by decide),
    r.registerInSteps_eq (by decide), Fault.ok_bind, Fault.ok_bind, Fault.ok_bind, prgBank]
  generalize (Window.prg addr).val = i
  match i with
  | 0 => rfl
  | 1 => rfl
  | 2 => rfl
  | _ + 3 => rfl

def chrTableInSteps (r : Mmc3) : Except Fault (Array UInt8) := do
  let r0 ← r.registerInSteps 0
  let r1 ← r.registerInSteps 1
  let r2 ← r.registerInSteps 2
  let r3 ← r.registerInSteps 3
  let r4 ← r.registerInSteps 4
  let r5 ← r.registerInSteps 5
  let pairs := #[r0 &&& 0xFE, r0 &&& 0xFE ||| 1, r1 &&& 0xFE, r1 &&& 0xFE ||| 1]
  let singles := #[r2, r3, r4, r5]
  return if r.chrSwapped then singles ++ pairs else pairs ++ singles

theorem chrTableInSteps_eq (r : Mmc3) : r.chrTableInSteps = .ok r.chrBanks.toArray := by
  unfold chrTableInSteps chrBanks
  iterate 6 rw [r.registerInSteps_eq (by decide), Fault.ok_bind]
  cases r.chrSwapped <;> rfl

def chrBankInSteps (r : Mmc3) (addr : UInt16) : Except Fault Nat := do
  let banks ← r.chrTableInSteps
  let bank ← Fault.item banks (Window.chrSlot addr)
  return bank.toNat

theorem chrBankInSteps_eq (r : Mmc3) (addr : UInt16) :
    r.chrBankInSteps addr = .ok (r.chrBank (Window.chr addr)) := by
  have hslot : (Window.chr addr).val < r.chrBanks.toArray.size := by
    rw [List.size_toArray, r.length_chrBanks]
    exact (Window.chr addr).isLt
  rw [chrBankInSteps, chrTableInSteps_eq, Fault.ok_bind, Window.chrSlot_eq,
    Fault.item_eq_ok hslot, Fault.ok_bind]
  rfl

/-- A port write; bank data is put into the register whose number the select byte holds. -/
def writeInSteps (wired : Mirroring) (addr : UInt16) (value : UInt8) (r : Mmc3) :
    Except Fault Mmc3 :=
  match port addr with
  | .bankData => do
    let target := (r.select &&& 7).toNat
    let stored := if target ≤ 1 then value &&& 0xFE else value
    let banks ← Fault.assign r.banks target stored
    return { r with banks }
  | _ => return r.write wired addr value

theorem writeInSteps_eq (wired : Mirroring) (addr : UInt16) (value : UInt8) (r : Mmc3) :
    r.writeInSteps wired addr value = .ok (r.write wired addr value) := by
  unfold writeInSteps
  split
  · next hport =>
    have hmask : (r.select &&& 7).toNat = r.select.toNat % 8 := by
      rw [UInt8.toNat_and]
      exact Nat.and_two_pow_sub_one_eq_mod r.select.toNat 3
    have hlt : r.select.toNat % 8 < 8 := Nat.mod_lt _ (by decide)
    rw [write, hport, hmask]
    dsimp only
    rw [Fault.assign_eq_ok hlt, Fault.ok_bind]
    rfl
  · rfl

def restoreInSteps (record : Record) (r : Mmc3) : Except Stop Mmc3 := do
  let banks ← Stop.copy 8 record.banks
  let select ← Stop.byteAt record.control 0
  let enabled ← Stop.byteAt record.control 1
  let guarded ← Stop.byteAt record.control 2
  return {
    revision := r.revision
    select := select
    banks := banks
    mirroring := record.mirroring
    ramEnabled := enabled != 0
    ramProtected := guarded != 0 }

theorem restoreInSteps_eq {record : Record} (hbanks : record.banks.length = 8)
    (hcontrol : record.control.length = 3) (r : Mmc3) :
    r.restoreInSteps record
      = .ok (r.restore record.banks record.control record.mirroring) := by
  rw [restoreInSteps, Stop.copy_eq_ok hbanks, Stop.byteAt_eq_ok (by omega),
    Stop.byteAt_eq_ok (by omega), Stop.byteAt_eq_ok (by omega)]
  rfl

end Mmc3

/-! ## The Mapper 222 -/

namespace Mapper222

/-- Only the last window asks for the number of the last bank. -/
def prgBankInSteps (r : Mapper222) (count : Nat) (addr : UInt16) : Except Fault Nat :=
  match (Window.prg addr).val with
  | 0 => return (← Fault.item r.prg.toArray 0).toNat
  | 1 => return (← Fault.item r.prg.toArray 1).toNat
  | 2 => return count - 2
  | _ => Fault.sub count 1

theorem prgBankInSteps_eq (r : Mapper222) {count : Nat} (h : 0 < count) (addr : UInt16) :
    r.prgBankInSteps count addr = .ok (r.prgBank count (Window.prg addr)) := by
  rw [prgBankInSteps, Fault.item_toArray_eq_ok r.prg (by decide),
    Fault.item_toArray_eq_ok r.prg (by decide), Fault.sub_eq_ok h, prgBank]
  generalize (Window.prg addr).val = i
  match i with
  | 0 => rfl
  | 1 => rfl
  | 2 => rfl
  | _ + 3 => rfl

def chrBankInSteps (r : Mapper222) (addr : UInt16) : Except Fault Nat := do
  let bank ← Fault.item r.chr.toArray (Window.chrSlot addr)
  return bank.toNat

theorem chrBankInSteps_eq (r : Mapper222) (addr : UInt16) :
    r.chrBankInSteps addr = .ok (r.chrBank (Window.chr addr)) := by
  rw [chrBankInSteps, Window.chrSlot_eq,
    Fault.item_toArray_eq_ok r.chr (Window.chr addr).isLt, Fault.ok_bind]
  rfl

/-- The number of the character register behind a port. -/
def chrRegister? (addr : UInt16) : Option Nat :=
  match addr &&& 0xF003 with
  | 0xB000 => some 0
  | 0xB002 => some 1
  | 0xC000 => some 2
  | 0xC002 => some 3
  | 0xD000 => some 4
  | 0xD002 => some 5
  | 0xE000 => some 6
  | 0xE002 => some 7
  | _ => none

/-- A port write; the character ports put the value into the register of their number. -/
def writeInSteps (addr : UInt16) (value : UInt8) (r : Mapper222) : Except Fault Mapper222 :=
  match chrRegister? addr with
  | some i => do
    let chr ← Fault.assign r.chr i value
    return { r with chr }
  | none => return r.write addr value

theorem port?_of_chrRegister? {addr : UInt16} {i : Nat} (h : chrRegister? addr = some i) :
    ∃ hi : i < 8, port? addr = some (.chr ⟨i, hi⟩) := by
  unfold chrRegister? at h
  unfold port?
  split at h
  case h_9 => cases h
  all_goals
    next hmask =>
      cases h
      rw [hmask]
      exact ⟨by decide, rfl⟩

theorem writeInSteps_eq (addr : UInt16) (value : UInt8) (r : Mapper222) :
    r.writeInSteps addr value = .ok (r.write addr value) := by
  unfold writeInSteps
  split
  · next i hregister =>
    obtain ⟨hi, hport⟩ := port?_of_chrRegister? hregister
    rw [write, hport, Fault.assign_eq_ok hi, Fault.ok_bind]
    rfl
  · rfl

def restoreInSteps (record : Record) : Except Stop Mapper222 := do
  let low ← Stop.slice record.banks 0 2
  let high ← Stop.slice record.banks 2 record.banks.length
  let prg ← Stop.copy 2 low
  let chr ← Stop.copy 8 high
  return { prg, chr, mirroring := record.mirroring }

theorem restoreInSteps_eq {record : Record} (hbanks : record.banks.length = 10) :
    restoreInSteps record = .ok (.restore record.banks record.mirroring) := by
  have hlength : 2 ≤ record.banks.length := by omega
  have hlow := Stop.copy_take hlength
  have hhigh := Stop.copy_drop (k := 2) (n := 8) hbanks
  unfold restoreInSteps
  rw [Stop.slice_eq_ok (Nat.zero_le 2) (by omega), Stop.slice_eq_ok (by omega) (Nat.le_refl _)]
  change (Stop.copy 2 _ >>= fun prg => Stop.copy 8 _ >>= fun chr => _) = _
  rw [hlow, hhigh]
  rfl

end Mapper222

/-! ## Either chip -/

namespace Chip

/-- Only an MMC3 has program RAM. -/
theorem family_of_ramReadable {c : Chip} (h : c.ramReadable = true) : c.family = .mmc3 := by
  cases c with
  | mmc3 r => rfl
  | mapper222 r => cases h

theorem family_of_ramWritable {c : Chip} (h : c.ramWritable = true) : c.family = .mmc3 := by
  cases c with
  | mmc3 r => rfl
  | mapper222 r => cases h

def prgBankInSteps (c : Chip) (count : Nat) (addr : UInt16) : Except Fault Nat :=
  match c with
  | mmc3 r => r.prgBankInSteps count addr
  | mapper222 r => r.prgBankInSteps count addr

theorem prgBankInSteps_eq (c : Chip) {count : Nat} (h : 0 < count) (addr : UInt16) :
    c.prgBankInSteps count addr = .ok (c.prgBank count (Window.prg addr)) := by
  cases c with
  | mmc3 r => exact r.prgBankInSteps_eq h addr
  | mapper222 r => exact r.prgBankInSteps_eq h addr

def chrBankInSteps (c : Chip) (addr : UInt16) : Except Fault Nat :=
  match c with
  | mmc3 r => r.chrBankInSteps addr
  | mapper222 r => r.chrBankInSteps addr

theorem chrBankInSteps_eq (c : Chip) (addr : UInt16) :
    c.chrBankInSteps addr = .ok (c.chrBank (Window.chr addr)) := by
  cases c with
  | mmc3 r => exact r.chrBankInSteps_eq addr
  | mapper222 r => exact r.chrBankInSteps_eq addr

def writeInSteps (wired : Mirroring) (addr : UInt16) (value : UInt8) : Chip → Except Fault Chip
  | mmc3 r => do return mmc3 (← r.writeInSteps wired addr value)
  | mapper222 r => do return mapper222 (← r.writeInSteps addr value)

theorem writeInSteps_eq (wired : Mirroring) (addr : UInt16) (value : UInt8) (c : Chip) :
    c.writeInSteps wired addr value = .ok (c.write wired addr value) := by
  cases c with
  | mmc3 r =>
    rw [writeInSteps, Mmc3.writeInSteps_eq]
    rfl
  | mapper222 r =>
    rw [writeInSteps, Mapper222.writeInSteps_eq]
    rfl

def restoreInSteps (record : Record) : Chip → Except Stop Chip
  | mmc3 r => do return mmc3 (← r.restoreInSteps record)
  | mapper222 _ => do return mapper222 (← Mapper222.restoreInSteps record)

/-- A record that passes the check is long enough for every index. -/
theorem restoreInSteps_eq {record : Record} {c : Chip} (h : record.check c.layout = .ok ()) :
    c.restoreInSteps record = .ok (c.restore record) := by
  obtain ⟨-, hbanks, hcontrol⟩ := (Record.check_eq_ok_iff record c.layout).mp h
  cases c with
  | mmc3 r =>
    rw [restoreInSteps, r.restoreInSteps_eq hbanks hcontrol]
    rfl
  | mapper222 r =>
    rw [restoreInSteps, Mapper222.restoreInSteps_eq hbanks]
    rfl

end Chip

end RasterIrq
