import RasterIrq.Proofs.Board.Resume

/-!
# Loading register by register

`Board.load` makes a new board out of a record. A board that is loaded in place goes another way:
it cuts the bytes into slices, checks what it finds, and then assigns one register after the other,
each from an indexed part of the record. A slice or an index may be out of range there, and a
procedure that stops half-way leaves the assignments made so far behind. `Board.loadInPlace` is that
procedure, with both dangers kept.

Results:
1. `Record.decodeInSteps_eq`: no slice is out of range, whatever the bytes.
2. `Board.run_loadInPlace`: loading in place is `Board.load`; no index is out of range, and a record
   that is refused leaves the board as it was.
3. `Board.loadInPlace_outcome`: when a record is taken, and which fault is named when it is not.
-/

namespace RasterIrq

theorem Family.name_injective : Function.Injective Family.name := by
  intro f g h
  cases f with
  | mmc3 =>
    cases g with
    | mmc3 => rfl
    | mapper222 => exact absurd h (by decide)
  | mapper222 =>
    cases g with
    | mmc3 => exact absurd h (by decide)
    | mapper222 => rfl

theorem Chip.layout_chip (c : Chip) : c.layout.chip = c.name := by
  cases c <;> rfl

/-- Why a procedure stops before its end. -/
inductive Stop where
  | refused (e : RecordError)
  /-- A part was asked for that a byte string does not have. -/
  | outOfRange
deriving DecidableEq, Repr

namespace Stop

/-- The bytes from `first` up to `stop`. -/
def slice (bytes : List UInt8) (first stop : Nat) : Except Stop (List UInt8) :=
  if first ≤ stop ∧ stop ≤ bytes.length then .ok ((bytes.take stop).drop first)
  else .error outOfRange

def byteAt (bytes : List UInt8) (i : Nat) : Except Stop UInt8 :=
  match bytes[i]? with
  | some b => .ok b
  | none => .error outOfRange

/-- Registers take the bytes of a slice of the same length only. -/
def copy (n : Nat) (bytes : List UInt8) : Except Stop (Vector UInt8 n) :=
  if h : bytes.length = n then .ok ⟨bytes.toArray, h⟩ else .error outOfRange

theorem slice_eq_ok {bytes : List UInt8} {first stop : Nat} (h : first ≤ stop)
    (h' : stop ≤ bytes.length) : slice bytes first stop = .ok ((bytes.take stop).drop first) :=
  if_pos ⟨h, h'⟩

theorem byteAt_eq_ok {bytes : List UInt8} {i : Nat} (h : i < bytes.length) :
    byteAt bytes i = .ok (bytes.getD i 0) := by
  rw [byteAt, List.getElem?_eq_getElem h, List.getD_eq_getElem?_getD, List.getElem?_eq_getElem h]
  rfl

theorem copy_eq_ok {n : Nat} {bytes : List UInt8} (h : bytes.length = n) :
    copy n bytes = .ok (Vector.ofFn fun i => bytes.getD i 0) := by
  rw [copy, dif_pos h]
  congr 1
  ext i hi
  simp [h ▸ hi]

/-- The first registers of a list of bytes. -/
theorem copy_take {n : Nat} {bytes : List UInt8} (h : n ≤ bytes.length) :
    copy n ((bytes.take n).drop 0) = .ok (Vector.ofFn fun i => bytes.getD i 0) := by
  rw [List.drop_zero, copy_eq_ok (List.length_take_of_le h)]
  congr 1
  ext i hi
  rw [Vector.getElem_ofFn, Vector.getElem_ofFn, List.getD_eq_getElem?_getD,
    List.getElem?_take_of_lt hi, List.getD_eq_getElem?_getD]

/-- The registers behind the first ones. -/
theorem copy_drop {k n : Nat} {bytes : List UInt8} (h : bytes.length = k + n) :
    copy n ((bytes.take bytes.length).drop k)
      = .ok (Vector.ofFn fun i => bytes.getD (k + i) 0) := by
  have hlength : (bytes.drop k).length = n := by
    rw [List.length_drop, h, Nat.add_sub_cancel_left]
  rw [List.take_length, copy_eq_ok hlength]
  congr 1
  ext i hi
  rw [Vector.getElem_ofFn, Vector.getElem_ofFn, List.getD_eq_getElem?_getD,
    List.getElem?_drop, List.getD_eq_getElem?_getD]

end Stop

namespace Record

/-- Decoding with every slice and index checked. -/
def decodeInSteps (bytes : List UInt8) : Except Stop Record :=
  if bytes.length < 4 then .error (.refused (.truncated bytes.length))
  else do
    if (← Stop.slice bytes 0 4) ≠ magic then .error (.refused .badMagic)
    else if bytes.length < headerSize then .error (.refused (.truncated bytes.length))
    else
      let found ← Stop.byteAt bytes 4
      if found ≠ version then .error (.refused (.unsupportedVersion found))
      else
        let digest ← Stop.slice bytes 5 headerSize
        let payload ← Stop.slice bytes headerSize bytes.length
        if Sha1.digest payload ≠ digest then .error (.refused .checksumMismatch)
        else
          match ofPayload? payload with
          | some r => .ok r
          | none => .error (.refused .malformed)

/-- No slice is out of range: the lengths checked in front of each make room for it. -/
theorem decodeInSteps_eq (bytes : List UInt8) :
    decodeInSteps bytes = (decode bytes).mapError .refused := by
  unfold decodeInSteps decode
  by_cases h4 : bytes.length < 4
  · rw [if_pos h4, if_pos h4]
    rfl
  rw [if_neg h4, if_neg h4, Stop.slice_eq_ok (Nat.zero_le 4) (by omega)]
  show (if bytes.take 4 ≠ magic then _ else _) = _
  by_cases hmagic : bytes.take 4 ≠ magic
  · rw [if_pos hmagic, if_pos hmagic]
    rfl
  rw [if_neg hmagic, if_neg hmagic]
  by_cases h25 : bytes.length < headerSize
  · rw [if_pos h25, if_pos h25]
    rfl
  have hlong : headerSize ≤ bytes.length := Nat.not_lt.mp h25
  have hdigest : (bytes.take headerSize).drop 5 = (bytes.drop 5).take 20 := List.drop_take
  rw [if_neg h25, if_neg h25, Stop.byteAt_eq_ok (Nat.lt_of_lt_of_le (by decide) hlong),
    Stop.slice_eq_ok (by decide) hlong, Stop.slice_eq_ok hlong (Nat.le_refl _), List.take_length,
    hdigest]
  show (if bytes.getD 4 0 ≠ version then _ else _) = _
  by_cases hversion : bytes.getD 4 0 ≠ version
  · rw [if_pos hversion, if_pos hversion]
    rfl
  rw [if_neg hversion, if_neg hversion]
  show (if Sha1.digest (bytes.drop headerSize) ≠ (bytes.drop 5).take 20 then _ else _) = _
  by_cases hsum : Sha1.digest (bytes.drop headerSize) ≠ (bytes.drop 5).take 20
  · rw [if_pos hsum, if_pos hsum]
    rfl
  rw [if_neg hsum, if_neg hsum]
  cases ofPayload? (bytes.drop headerSize) <;> rfl

/-- The fault that a check names is the first one in the order name, banks, control latches. -/
theorem check_eq_error_iff (r : Record) (layout : Layout) (e : RecordError) :
    r.check layout = .error e ↔
      r.chip ≠ layout.chip ∧ e = .chipMismatch layout.chip r.chip ∨
      r.chip = layout.chip ∧ r.banks.length ≠ layout.banks ∧
        e = .bankCount layout.banks r.banks.length ∨
      r.chip = layout.chip ∧ r.banks.length = layout.banks ∧ r.control.length ≠ layout.control ∧
        e = .controlCount layout.control r.control.length := by
  unfold check
  by_cases hchip : r.chip = layout.chip
  · by_cases hbanks : r.banks.length = layout.banks
    · by_cases hcontrol : r.control.length = layout.control
      · simp [hchip, hbanks, hcontrol]
      · simp [hchip, hbanks, hcontrol, eq_comm (b := e)]
    · simp [hchip, hbanks, eq_comm (b := e)]
  · simp [hchip, eq_comm (b := e)]

end Record

namespace Board

/-! ## Procedures -/

/-- A procedure that changes a board step by step; a stop leaves the steps behind it in force. -/
abbrev Procedure := ExceptT Stop (StateM Board)

namespace Procedure

variable {α β : Type}

theorem run_ok_bind (x : α) (f : α → Procedure β) (b : Board) :
    (((Except.ok x : Except Stop α) : Procedure α) >>= f).run.run b = (f x).run.run b := rfl

theorem run_get_bind (f : Board → Procedure β) (b : Board) :
    ((get : Procedure Board) >>= f).run.run b = (f b).run.run b := rfl

theorem run_modify_bind (g : Board → Board) (f : PUnit → Procedure β) (b : Board) :
    ((modify g : Procedure PUnit) >>= f).run.run b = (f ⟨⟩).run.run (g b) := rfl

theorem run_bind_of_ok {p : Procedure α} {f : α → Procedure β} {b b' : Board} {x : α}
    (h : p.run.run b = (.ok x, b')) : (p >>= f).run.run b = (f x).run.run b' := by
  rw [ExceptT.run_bind, StateT.run_bind, h]
  rfl

end Procedure

/-! ## Loading in place -/

/-- Assigns registers of an MMC3. -/
def assignMmc3 (f : Mmc3 → Mmc3) (b : Board) : Board :=
  match b.chip with
  | .mmc3 r => { b with chip := .mmc3 (f r) }
  | .mapper222 _ => b

/-- Assigns registers of a Mapper 222. -/
def assignMapper222 (f : Mapper222 → Mapper222) (b : Board) : Board :=
  match b.chip with
  | .mmc3 _ => b
  | .mapper222 r => { b with chip := .mapper222 (f r) }

def loadMmc3 (record : Record) : Procedure Unit := do
  let banks ← Stop.copy 8 record.banks
  modify (assignMmc3 fun r => { r with banks })
  let select ← Stop.byteAt record.control 0
  modify (assignMmc3 fun r => { r with select })
  let enabled ← Stop.byteAt record.control 1
  modify (assignMmc3 fun r => { r with ramEnabled := enabled != 0 })
  let guarded ← Stop.byteAt record.control 2
  modify (assignMmc3 fun r => { r with ramProtected := guarded != 0 })
  modify (assignMmc3 fun r => { r with mirroring := record.mirroring })

def loadMapper222 (record : Record) : Procedure Unit := do
  let low ← Stop.slice record.banks 0 2
  let high ← Stop.slice record.banks 2 record.banks.length
  let prg ← Stop.copy 2 low
  modify (assignMapper222 fun r => { r with prg })
  let chr ← Stop.copy 8 high
  modify (assignMapper222 fun r => { r with chr })
  modify (assignMapper222 fun r => { r with mirroring := record.mirroring })

def loadRegisters (record : Record) : Procedure Unit := do
  match (← get).chip with
  | .mmc3 _ => loadMmc3 record
  | .mapper222 _ => loadMapper222 record

/-- Loads a record by assigning one register after the other. -/
def loadInPlace (bytes : List UInt8) : Procedure Unit := do
  let record ← Record.decodeInSteps bytes
  let _ ← (record.check (← get).chip.layout).mapError Stop.refused
  loadRegisters record
  modify fun b => { b with irq := ⟨record.counter, record.monitor⟩ }

theorem run_loadMmc3 {record : Record} {b : Board} {r : Mmc3} (hchip : b.chip = .mmc3 r)
    (hbanks : record.banks.length = 8) (hcontrol : record.control.length = 3) :
    (loadMmc3 record).run.run b
      = (.ok (), { b with
          chip := .mmc3 (r.restore record.banks record.control record.mirroring) }) := by
  rcases b with ⟨prg, chr, chrIsRam, ram, wired, chip, irq⟩
  cases hchip
  unfold loadMmc3
  rw [Stop.copy_eq_ok hbanks, Stop.byteAt_eq_ok (by omega), Stop.byteAt_eq_ok (by omega),
    Stop.byteAt_eq_ok (by omega)]
  rfl

theorem run_loadMapper222 {record : Record} {b : Board} {r : Mapper222}
    (hchip : b.chip = .mapper222 r) (hbanks : record.banks.length = 10) :
    (loadMapper222 record).run.run b
      = (.ok (), { b with chip := .mapper222 (.restore record.banks record.mirroring) }) := by
  rcases b with ⟨prg, chr, chrIsRam, ram, wired, chip, irq⟩
  cases hchip
  unfold loadMapper222
  rw [Stop.slice_eq_ok (Nat.zero_le 2) (by omega), Stop.slice_eq_ok (by omega) (Nat.le_refl _),
    Procedure.run_ok_bind, Procedure.run_ok_bind, Stop.copy_take (by omega),
    Procedure.run_ok_bind, Procedure.run_modify_bind, Stop.copy_drop (by omega)]
  rfl

/-- A record of the board's layout is long enough for every index, and the assignments together
restore the chip. -/
theorem run_loadRegisters {record : Record} {b : Board}
    (h : record.check b.chip.layout = .ok ()) :
    (loadRegisters record).run.run b
      = (.ok (), { b with chip := b.chip.restore record }) := by
  obtain ⟨-, hbanks, hcontrol⟩ := (Record.check_eq_ok_iff record b.chip.layout).mp h
  unfold loadRegisters
  rw [Procedure.run_get_bind]
  cases hchip : b.chip with
  | mmc3 r =>
    rw [hchip] at hbanks hcontrol
    exact run_loadMmc3 hchip hbanks hcontrol
  | mapper222 r =>
    rw [hchip] at hbanks
    exact run_loadMapper222 hchip hbanks

/-- Loading in place is `load`. A refused record leaves no assignment behind. -/
theorem run_loadInPlace (bytes : List UInt8) (b : Board) :
    (loadInPlace bytes).run.run b
      = match b.load bytes with
        | .ok loaded => (.ok (), loaded)
        | .error e => (.error (.refused e), b) := by
  rw [load_eq]
  unfold loadInPlace
  rw [Record.decodeInSteps_eq]
  cases hdecode : Record.decode bytes with
  | error e => rfl
  | ok record =>
    dsimp only
    rw [Except.mapError, Procedure.run_ok_bind, Procedure.run_get_bind]
    cases hcheck : record.check b.chip.layout with
    | error e =>
      rw [restore_eq_error hcheck]
      rfl
    | ok u =>
      rw [restore_eq_ok hcheck, Except.mapError, Procedure.run_ok_bind,
        Procedure.run_bind_of_ok (run_loadRegisters hcheck)]
      rfl

/-! ## Outcomes -/

theorem load_eq_ok_iff {bytes : List UInt8} {b loaded : Board} :
    b.load bytes = .ok loaded ↔
      ∃ r, Record.decode bytes = .ok r ∧ r.check b.chip.layout = .ok () ∧
        loaded = { b with chip := b.chip.restore r, irq := ⟨r.counter, r.monitor⟩ } := by
  rw [load_eq]
  cases Record.decode bytes with
  | error e => simp
  | ok r =>
    dsimp only
    cases hcheck : r.check b.chip.layout with
    | error e => simp [restore_eq_error hcheck, hcheck]
    | ok u => simp [restore_eq_ok hcheck, hcheck, eq_comm]

theorem load_eq_error_iff {bytes : List UInt8} {b : Board} {e : RecordError} :
    b.load bytes = .error e ↔
      Record.decode bytes = .error e ∨
        ∃ r, Record.decode bytes = .ok r ∧ r.check b.chip.layout = .error e := by
  rw [load_eq]
  cases Record.decode bytes with
  | error e => simp
  | ok r =>
    dsimp only
    cases hcheck : r.check b.chip.layout with
    | error e => simp [restore_eq_error hcheck, hcheck]
    | ok u => simp [restore_eq_ok hcheck, hcheck]

/-- A board refuses what another family saved, and says whose record it is. -/
theorem load_save_of_family_ne {a b : Board} (h : a.chip.family ≠ b.chip.family) :
    b.load a.save = .error (.chipMismatch b.chip.name a.chip.name) := by
  have hname : a.chip.name ≠ b.chip.name := fun heq => h (Family.name_injective heq)
  rw [load_save_eq_restore]
  refine restore_eq_error ((Record.check_eq_error_iff _ _ _).mpr (.inl ?_))
  rw [Chip.layout_chip]
  exact ⟨hname, rfl⟩

theorem run_loadInPlace_of_ok {bytes : List UInt8} {b loaded : Board}
    (h : b.load bytes = .ok loaded) : (loadInPlace bytes).run.run b = (.ok (), loaded) := by
  rw [run_loadInPlace, h]

theorem run_loadInPlace_of_error {bytes : List UInt8} {b : Board} {e : RecordError}
    (h : b.load bytes = .error e) :
    (loadInPlace bytes).run.run b = (.error (.refused e), b) := by
  rw [run_loadInPlace, h]

theorem layout_eq (b : Board) :
    b.chip.layout =
      match b.chip.family with
      | .mmc3 => ⟨"MMC3", 8, 3⟩
      | .mapper222 => ⟨"Mapper 222", 10, 0⟩ := by
  cases b.chip <;> rfl

/-- What loading in place comes to. It never leaves a byte string's bounds. It takes exactly the
records of the board's own layout; else it names the fault of decoding, or the first of name, bank
count and latch count that is wrong, and the board is as it was. So boards of one family take each
other's records, and boards of two families never do. -/
theorem loadInPlace_outcome (b : Board) (bytes : List UInt8) :
    let (result, after) := (loadInPlace bytes).run.run b
    let expected : Record.Layout :=
      match b.chip.family with
      | .mmc3 => ⟨"MMC3", 8, 3⟩
      | .mapper222 => ⟨"Mapper 222", 10, 0⟩
    result ≠ .error .outOfRange ∧
    (result = .ok () ↔
      ∃ r, Record.decode bytes = .ok r ∧ r.chip = expected.chip ∧
        r.banks.length = expected.banks ∧ r.control.length = expected.control) ∧
    (∀ e, result = .error (.refused e) ↔
      Record.decode bytes = .error e ∨
      ∃ r, Record.decode bytes = .ok r ∧
        (r.chip ≠ expected.chip ∧ e = .chipMismatch expected.chip r.chip ∨
        r.chip = expected.chip ∧ r.banks.length ≠ expected.banks ∧
          e = .bankCount expected.banks r.banks.length ∨
        r.chip = expected.chip ∧ r.banks.length = expected.banks ∧
          r.control.length ≠ expected.control ∧
          e = .controlCount expected.control r.control.length)) ∧
    (result ≠ .ok () → after = b) ∧
    (∀ loaded, b.load bytes = .ok loaded ↔ result = .ok () ∧ after = loaded) ∧
    (∀ e, b.load bytes = .error e ↔ result = .error (.refused e)) ∧
    ∀ a : Board,
      (a.chip.family = b.chip.family → ((loadInPlace a.save).run.run b).1 = .ok ()) ∧
      (a.chip.family ≠ b.chip.family →
        (loadInPlace a.save).run.run b
          = (.error (.refused (.chipMismatch expected.chip a.chip.name)), b)) := by
  rw [← layout_eq]
  have hsaved : ∀ a : Board,
      (a.chip.family = b.chip.family → ((loadInPlace a.save).run.run b).1 = .ok ()) ∧
      (a.chip.family ≠ b.chip.family →
        (loadInPlace a.save).run.run b
          = (.error (.refused (.chipMismatch b.chip.layout.chip a.chip.name)), b)) := by
    intro a
    refine ⟨fun h => ?_, fun h => ?_⟩
    · rw [run_loadInPlace_of_ok (load_save h)]
    · rw [Chip.layout_chip]
      exact run_loadInPlace_of_error (load_save_of_family_ne h)
  -- The spelled-out conditions are those of the check, and the faults those of `load`.
  simp only [← Record.check_eq_ok_iff, ← Record.check_eq_error_iff, ← load_eq_error_iff]
  cases hload : b.load bytes with
  | ok loaded =>
    obtain ⟨r, hdecode, hcheck, -⟩ := load_eq_ok_iff.mp hload
    rw [run_loadInPlace_of_ok hload]
    refine ⟨nofun, ⟨fun _ => ⟨r, hdecode, hcheck⟩, fun _ => rfl⟩, fun e => ⟨nofun, nofun⟩,
      fun h => absurd rfl h, fun other => ⟨?_, ?_⟩, fun e => ⟨nofun, nofun⟩, hsaved⟩
    · intro h
      exact ⟨rfl, Except.ok.inj h⟩
    · rintro ⟨-, rfl⟩
      rfl
  | error e =>
    rw [run_loadInPlace_of_error hload]
    refine ⟨nofun, ⟨nofun, ?_⟩, fun e' => ⟨?_, ?_⟩, fun _ => rfl, fun other => ⟨nofun, nofun⟩,
      fun e' => ⟨?_, ?_⟩, hsaved⟩
    · rintro ⟨r, hdecode, hcheck⟩
      rw [load_eq_ok_iff.mpr ⟨r, hdecode, hcheck, rfl⟩] at hload
      cases hload
    all_goals
      intro h
      cases h
      rfl

/-- Boards of two blank cartridges: one takes its own record and refuses the other's. -/
theorem loadInPlace_outcome_blank :
    ∃ a b, ofCartridge (Cartridge.blank 4 0 16 128) = .ok a ∧
      ofCartridge (Cartridge.blank 222 0 16 128) = .ok b ∧
      ((loadInPlace b.save).run.run b).1 = .ok () ∧
      (loadInPlace a.save).run.run b
        = (.error (.refused (.chipMismatch "Mapper 222" "MMC3")), b) := by
  obtain ⟨a, ha, hachip⟩ := exists_ofCartridge_blank
    (show Family.ofNumber? 4 = some .mmc3 from rfl) 0 16 128
  obtain ⟨b, hb, hbchip⟩ := exists_ofCartridge_blank
    (show Family.ofNumber? 222 = some .mapper222 from rfl) 0 16 128
  have hname : b.chip.family = .mapper222 := by rw [hbchip]; rfl
  have hfound : a.chip.name = "MMC3" := by rw [hachip]; rfl
  have hne : a.chip.family ≠ b.chip.family := by rw [hname, hachip]; decide
  have houtcome := loadInPlace_outcome b a.save
  rw [run_loadInPlace_of_error (load_save_of_family_ne hne)] at houtcome
  obtain ⟨-, -, -, -, -, -, hsaved⟩ := houtcome
  have htaken := (hsaved b).1 (Eq.refl b.chip.family)
  have hrefused := (hsaved a).2 hne
  rw [hname, hfound] at hrefused
  exact ⟨a, b, ha, hb, htaken, hrefused⟩

end Board

end RasterIrq
