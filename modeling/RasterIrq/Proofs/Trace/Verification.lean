import RasterIrq.Trace
import RasterIrq.Proofs.Board.Resume

/-!
# The check of a saved record

A trace can check that a record taken half-way leads to the same second half. It starts the run
anew, plays the first half again, and loads the record into the board that it finds there. A board
that takes back its own record is left as it is, so the second half is the one that was expected,
whatever state the first half left. A trace that gets as far as printing its run therefore passes
the check.

Results:
1. `Trace.Request.frames_pos`: every run that a command line asks for has a frame.
2. `Trace.verifyState_eq_ok`: the check passes whenever a bus can be built.
3. `Trace.failure_run_eq_none_iff`: without the check, a run fails only where no bus can be built.
4. `Trace.verifyState_passes`: a command line whose run succeeds also passes the check.
-/

namespace RasterIrq.Trace

/-! ## Command lines -/

theorem Request.frames_pos_of_read {o o' : Options} {args : List String}
    (h : read o args = .ok (.run o')) : 0 < o'.frames.toNat := by
  fun_induction read o args with
  | case2 o hframes =>
    cases h
    exact Nat.pos_of_ne_zero fun hzero => hframes (UInt32.toNat_inj.mp hzero)
  | case5 o arg rest s hswitch ih => exact ih h
  | case7 o arg s value rest hsetting o'' hvalue ih => exact ih h
  | _ => cases h

/-- Every run that a command line asks for has a frame. -/
theorem Request.frames_pos {o : Options} {args : List String}
    (h : ofArguments args = .ok (.run o)) : 0 < o.frames.toNat :=
  frames_pos_of_read h

/-! ## Blank cartridges -/

theorem newBus_eq_ok {files : Files} {o : Options} {cart : Cartridge} {board : Board}
    (hcart : cartridge files o = .ok cart) (hboard : Board.ofCartridge cart = .ok board) :
    newBus files o
      = .ok (if o.spritesLow then ({ board } : Bus).setTables 0x1000 0x0000 else { board }) := by
  rw [newBus, hcart]
  simp only [bind, Except.bind, hboard]
  rfl

theorem buildBus_eq_ok {files : Files} {o : Options} {b : Bus} (hstate : o.state = none)
    (h : newBus files o = .ok b) : buildBus files o = .ok (arm o b) := by
  rw [buildBus, h]
  simp only [bind, Except.bind, restoreState, hstate]
  rfl

/-- Without an image file and a saved record, a bus can be built for every known board number. -/
theorem exists_buildBus_blank {o : Options} {family : Family} (hrom : o.rom = none)
    (hstate : o.state = none) (hfamily : Family.ofNumber? o.mapper = some family)
    (files : Files) : ∃ start, buildBus files o = .ok start := by
  obtain ⟨board, hboard, -⟩ := Board.exists_ofCartridge_blank hfamily o.submapper 16 128
  have hcart : cartridge files o = .ok (Cartridge.blank o.mapper o.submapper 16 128) := by
    rw [cartridge, hrom]
  exact ⟨_, buildBus_eq_ok hstate (newBus_eq_ok hcart hboard)⟩

/-! ## The check -/

/-- The check passes whenever a bus can be built. -/
theorem verifyState_eq_ok {files : Files} {o : Options} {start : Bus}
    (h : buildBus files o = .ok start) :
    let half := o.frames.toNat / 2
    let rest := o.frames.toNat - half
    verifyState files o
      = .ok ("State round-trip OK (" ++ toString (start.runFrames half).2.board.save.length
          ++ " bytes, " ++ toString rest ++ " frame(s) replayed)") := by
  intro half rest
  -- Half-way the second bus is the first one, since both are built from the same options.
  have hload := (start.runFrames half).2.board.load_save_self
  unfold verifyState
  simp only [h, bind, Except.bind]
  rw [hload]
  exact if_pos rfl

/-! ## The run before the check -/

/-- Without the check, a run fails only where no bus can be built. -/
theorem failure_run_eq_none_iff {files : Files} {o : Options} (hverify : o.verifyState = false) :
    (run files o).failure = none ↔ ∃ start, buildBus files o = .ok start := by
  unfold run
  cases buildBus files o with
  | error e => simp
  | ok start => simp [hverify]

/-- What a run prints before the check. The check itself changes nothing of it. -/
theorem run_without_check {files : Files} {o : Options} {start : Bus}
    (h : buildBus files o = .ok start) :
    run files { o with verifyState := false } = { lines := report o start } := by
  have hbuild : buildBus files { o with verifyState := false } = .ok start := h
  rw [run, hbuild]
  rfl

/-- What a run prints with the check, if the check passes. -/
theorem run_with_check {files : Files} {o : Options} {start : Bus} {line : String}
    (h : buildBus files o = .ok start) (hverify : o.verifyState = true)
    (hline : verifyState files o = .ok line) :
    run files o = { lines := report o start ++ [line] } := by
  rw [run, h]
  dsimp only
  rw [if_pos hverify, hline]

/-! ## The whole command line -/

/-- A command line whose run succeeds without the check: the record taken half-way is taken back by
the board that it came from, at least one frame follows, the frames that follow are the expected
ones, and the check reports the record's length and the number of these frames behind all that the
run prints. -/
theorem verifyState_passes {files : Files} {args : List String} {o : Options}
    (hargs : Request.ofArguments args = .ok (.run o))
    (hrun : (run files { o with verifyState := false }).failure = none) :
    ∃ start, buildBus files o = .ok start ∧
      let half := o.frames.toNat / 2
      let rest := o.frames.toNat - half
      let middle := (start.runFrames half).2
      let line := "State round-trip OK (" ++ toString middle.board.save.length ++ " bytes, "
        ++ toString rest ++ " frame(s) replayed)"
      0 < rest ∧
      (∃ board, middle.board.load middle.board.save = .ok board ∧
        (({ middle with board } : Bus).runFrames rest).1 = (middle.runFrames rest).1) ∧
      verifyState files o = .ok line ∧
      (o.verifyState = true → runArguments files args
        = { lines := (run files { o with verifyState := false }).lines ++ [line] }) := by
  obtain ⟨start, hbuild⟩ := (failure_run_eq_none_iff rfl).mp hrun
  have hstart : buildBus files o = .ok start := hbuild
  have hframes := Request.frames_pos hargs
  have hline := verifyState_eq_ok hstart
  refine ⟨start, hstart, by omega, ⟨_, Board.load_save_self _, rfl⟩, hline, fun hverify => ?_⟩
  rw [runArguments, hargs, run_without_check hstart]
  exact run_with_check hstart hverify hline

/-- Three frames of a blank Mapper 222 cartridge with a latch of 20 and the tables swapped. The
check replays the last two of them. -/
theorem verifyState_passes_blank :
    let files : Files := fun _ => .error "no file was named"
    let o : Options :=
      { mapper := 222, frames := 3, latch := some 20, spritesLow := true, verifyState := true }
    ∃ start, buildBus files o = .ok start ∧
      runArguments files ["--mapper", "222", "--frames", "3", "--latch", "20", "--sprites-low",
          "--verify-state"]
        = { lines := (run files { o with verifyState := false }).lines ++
            ["State round-trip OK (" ++ toString (start.runFrames 1).2.board.save.length
              ++ " bytes, 2 frame(s) replayed)"] } := by
  intro files o
  have hargs : Request.ofArguments ["--mapper", "222", "--frames", "3", "--latch", "20",
      "--sprites-low", "--verify-state"] = .ok (.run o) := rfl
  have hbuild := exists_buildBus_blank (o := { o with verifyState := false }) rfl rfl
    (show Family.ofNumber? 222 = some .mapper222 from rfl) files
  obtain ⟨start, hstart, -, -, -, hprinted⟩ :=
    verifyState_passes hargs ((failure_run_eq_none_iff rfl).mpr hbuild)
  have hhalf : o.frames.toNat / 2 = 1 := by decide
  have hrest : toString (o.frames.toNat - o.frames.toNat / 2) = "2" := by decide
  have htail : " bytes, " ++ ("2" ++ " frame(s) replayed)") = " bytes, 2 frame(s) replayed)" := by
    decide
  have hlines := hprinted rfl
  rw [hrest, hhalf, String.append_assoc, String.append_assoc, htail] at hlines
  exact ⟨start, hstart, hlines⟩

end RasterIrq.Trace
