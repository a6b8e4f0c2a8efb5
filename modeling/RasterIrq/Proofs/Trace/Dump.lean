import RasterIrq.Proofs.Bus.Restart
import RasterIrq.Proofs.Cartridge.Parts
import RasterIrq.Proofs.Text.Base64
import RasterIrq.Proofs.Trace.Verification

/-!
# A dumped record starts another trace

A trace can print its board's last record in base64, and can start from a printed record. The second
trace may run another cartridge, even one with the other revision of the same chip: a record says
nothing of memories and revisions, so every board of the family takes it, and saves it again byte
for byte. What a run does to a board never changes the family, which the cartridge's number alone
decides.

Results:
1. `Trace.exists_buildBus_of_state`: a text with a record of the family builds a bus.
2. `Trace.getElem?_report_of_dumpState`: where a trace prints its record.
3. `Trace.buildBus_of_dumped`: what one trace dumps, another one starts from.
-/

namespace RasterIrq

namespace Trace

/-! ## Building a bus -/

/-- The cartridge that the options name makes a board if its number is known: an image is taken in
whole banks only, and a blank cartridge consists of them. -/
theorem exists_board_of_cartridge {files : Files} {o : Options} {cart : Cartridge}
    (h : cartridge files o = .ok cart) {family : Family}
    (hfamily : Family.ofNumber? cart.mapper = some family) :
    ∃ board, Board.ofCartridge cart = .ok board := by
  unfold cartridge at h
  split at h
  · cases h
    obtain ⟨board, hboard, -⟩ := Board.exists_ofCartridge_blank hfamily o.submapper 16 128
    exact ⟨board, hboard⟩
  · split at h
    · cases h
    · exact Cartridge.exists_board_of_ofImage (eq_ok_of_mapError_eq_ok h)

/-- A new bus carries the board of the cartridge. -/
theorem exists_cartridge_of_newBus {files : Files} {o : Options} {b : Bus}
    (h : newBus files o = .ok b) :
    ∃ cart, cartridge files o = .ok cart ∧ Board.ofCartridge cart = .ok b.board := by
  obtain ⟨cart, hcart, hnew⟩ := exists_of_bind_eq_ok h
  obtain ⟨board, hboard, hbus⟩ := exists_of_bind_eq_ok hnew
  refine ⟨cart, hcart, ?_⟩
  rw [eq_ok_of_mapError_eq_ok hboard, ← Except.ok.inj hbus]
  split <;> rfl

theorem sameBuild_restoreState {o : Options} {b restored : Bus}
    (h : restoreState o b = .ok restored) : Board.SameBuild b.board restored.board := by
  unfold restoreState at h
  split at h
  · cases h
    exact Board.SameBuild.refl b.board
  · split at h
    · cases h
    · obtain ⟨loaded, hload, rfl⟩ := exists_of_map_eq_ok h
      exact .of_load (eq_ok_of_mapError_eq_ok hload)

theorem sameBuild_arm (o : Options) (b : Bus) : Board.SameBuild b.board (arm o b).board := by
  have hwrites := fun latch => b.sameBuild_writeAll (armWrites b.board.chip.family latch)
  unfold arm
  cases o.latch with
  | none => exact Board.SameBuild.refl b.board
  | some latch =>
    dsimp only
    split
    · exact hwrites latch
    · exact hwrites latch

/-- Whatever a trace restores and arms, its board stays one of the cartridge's family. -/
theorem exists_cartridge_of_buildBus {files : Files} {o : Options} {start : Bus}
    (h : buildBus files o = .ok start) :
    ∃ cart, cartridge files o = .ok cart ∧
      Family.ofNumber? cart.mapper = some start.board.chip.family := by
  obtain ⟨new, hnew, hlater⟩ := exists_of_bind_eq_ok h
  obtain ⟨restored, hrestored, harmed⟩ := exists_of_bind_eq_ok hlater
  obtain ⟨cart, hcart, hboard⟩ := exists_cartridge_of_newBus hnew
  have hbuild := (sameBuild_restoreState hrestored).trans (sameBuild_arm o restored)
  refine ⟨cart, hcart, ?_⟩
  rw [Board.family_of_ofCartridge hboard, ← Except.ok.inj harmed,
    Chip.family_eq_of_make hbuild.make]

/-- A text that holds what a board of the cartridge's family saved builds a bus. In front of its
first frame the bus has a board that saves the same. -/
theorem exists_buildBus_of_state {files : Files} {o : Options} {cart : Cartridge} {a : Board}
    {text : String} (hcart : cartridge files o = .ok cart)
    (hfamily : Family.ofNumber? cart.mapper = some a.chip.family) (hlatch : o.latch = none)
    (hstate : o.state = some text)
    (htext : Base64.decode? (Blank.trimText text).toList = some a.save) :
    ∃ b, buildBus files o = .ok b ∧ b.board.save = a.save ∧ b.frame = 0 := by
  obtain ⟨board, hboard⟩ := exists_board_of_cartridge hcart hfamily
  have hnew := newBus_eq_ok hcart hboard
  generalize hbus : (if o.spritesLow then ({ board } : Bus).setTables 0x1000 0x0000
    else { board }) = new at hnew
  have hnewBoard : new.board = board := by
    rw [← hbus]
    split <;> rfl
  have hnewFrame : new.frame = 0 := by
    rw [← hbus]
    split <;> rfl
  have hsame : a.chip.family = new.board.chip.family := by
    rw [hnewBoard]
    exact Option.some.inj (hfamily.symm.trans (Board.family_of_ofCartridge hboard))
  obtain ⟨loaded, hload, hsave⟩ := Board.exists_load_save_of_family hsame
  have hrestored : restoreState o new = .ok { new with board := loaded } := by
    rw [restoreState, hstate]
    dsimp only
    rw [htext]
    dsimp only
    rw [hload]
    rfl
  refine ⟨{ new with board := loaded }, ?_, hsave, hnewFrame⟩
  rw [buildBus, hnew]
  simp only [bind, Except.bind, hrestored, arm, hlatch]
  rfl

/-! ## Printing the record -/

/-- Behind the board's name, a line for each frame and two more lines comes the record. -/
theorem getElem?_report_of_dumpState {o : Options} (h : o.dumpState = true) (start : Bus) :
    (report o start)[o.frames.toNat + 3]?
      = some (String.ofList (Base64.encode (start.runFrames o.frames.toNat).2.board.save)) := by
  have hframes := start.length_lines_runFrames o.frames.toNat
  unfold report
  generalize start.runFrames o.frames.toNat = played at hframes ⊢
  obtain ⟨frames, final⟩ := played
  dsimp only at hframes ⊢
  rw [if_pos h, List.getElem?_append_right]
  · simp [frameLines, hframes]
  · simp [frameLines, hframes]

/-- A run that succeeds prints its report first. -/
theorem exists_report_of_run {files : Files} {o : Options} (h : (run files o).failure = none) :
    ∃ start tail, buildBus files o = .ok start ∧
      (run files o).lines = report o start ++ tail := by
  cases hbuild : buildBus files o with
  | error e =>
    rw [run, hbuild] at h
    cases h
  | ok start =>
    cases hverify : o.verifyState with
    | false =>
      have hlines : (run files o).lines = report o start := by
        rw [run, hbuild]
        simp only [hverify, Bool.false_eq_true, if_false]
      exact ⟨start, [], rfl, hlines.trans (List.append_nil _).symm⟩
    | true =>
      have hchecked := run_with_check hbuild hverify (verifyState_eq_ok hbuild)
      exact ⟨start, _, rfl, congrArg Transcript.lines hchecked⟩

/-! ## From one trace to another -/

/-- A trace that succeeds and dumps its record prints it behind its frames. Every trace of a
cartridge with the same number starts from that line, with any blanks around it, unless it arms the
counter: it builds a bus that stands in front of its first frame and saves the very bytes of the
record. -/
theorem buildBus_of_dumped {files : Files} {args : List String} {o : Options}
    (hargs : Request.ofArguments args = .ok (.run o)) (hdump : o.dumpState = true)
    (hrun : (runArguments files args).failure = none) :
    ∃ cart start line, cartridge files o = .ok cart ∧ buildBus files o = .ok start ∧
      (runArguments files args).lines[o.frames.toNat + 3]? = some line ∧
      let dumped := (start.runFrames o.frames.toNat).2.board.save
      line = String.ofList (Base64.encode dumped) ∧
      ∀ (files' : Files) (o' : Options) (cart' : Cartridge) (before after : String),
        cartridge files' o' = .ok cart' → cart'.mapper = cart.mapper → o'.latch = none →
        (∀ c ∈ before.toList, Blank.isBlank c = true) →
        (∀ c ∈ after.toList, Blank.isBlank c = true) →
        o'.state = some (before ++ line ++ after) →
        ∃ b, buildBus files' o' = .ok b ∧ b.board.save = dumped ∧ b.frame = 0 := by
  have hrequest : runArguments files args = run files o := by rw [runArguments, hargs]
  rw [hrequest] at hrun ⊢
  obtain ⟨start, tail, hbuild, hlines⟩ := exists_report_of_run hrun
  obtain ⟨cart, hcart, hfamily⟩ := exists_cartridge_of_buildBus hbuild
  have hline := getElem?_report_of_dumpState hdump start
  -- The run changes registers, counters and memories, but not the family.
  have hfinal : start.board.chip.family
      = (start.runFrames o.frames.toNat).2.board.chip.family := by
    rw [Bus.final_runFrames]
    exact Chip.family_eq_of_make (start.sameBuild_run _).make
  rw [hfinal] at hfamily
  refine ⟨cart, start, _, hcart, hbuild, ?_, rfl, ?_⟩
  · rw [hlines, List.getElem?_append_left (List.getElem?_eq_some_iff.mp hline).1, hline]
  generalize (start.runFrames o.frames.toNat).2.board = final at hfamily ⊢
  intro files' o' cart' before after hcart' hmapper hlatch hbefore hafter hstate
  refine exists_buildBus_of_state hcart' (hmapper ▸ hfamily) hlatch hstate ?_
  rw [Blank.trimText, String.toList_ofList, String.toList_append, String.toList_append,
    String.toList_ofList]
  exact Base64.decode?_trim_encode hbefore hafter final.save

/-- A blank MMC3 cartridge dumps its record after a frame. A blank one with the other revision
starts from it, with a blank in front of the record and the end of the line behind it. -/
theorem buildBus_of_dumped_blank :
    let files : Files := fun _ => .error "no file was named"
    let o : Options := { latch := some 20, dumpState := true }
    ∃ start line o' b, buildBus files o = .ok start ∧
      (runArguments files ["--latch", "20", "--dump-state"]).lines[4]? = some line ∧
      Request.ofArguments ["--submapper", "4", "--state", " " ++ line ++ "\n"]
        = .ok (.run o') ∧
      buildBus files o' = .ok b ∧ b.board.save = (start.runFrames 1).2.board.save ∧
      b.frame = 0 := by
  intro files o
  have hargs : Request.ofArguments ["--latch", "20", "--dump-state"] = .ok (.run o) := rfl
  have hbuild := exists_buildBus_blank (o := o) rfl rfl
    (show Family.ofNumber? 4 = some .mmc3 from rfl) files
  have hrun : (runArguments files ["--latch", "20", "--dump-state"]).failure = none :=
    (failure_run_eq_none_iff (o := o) rfl).mpr hbuild
  obtain ⟨cart, start, line, hcart, hstart, hline, -, hrestart⟩ :=
    buildBus_of_dumped hargs rfl hrun
  have hmapper : (Cartridge.blank 4 4 16 128).mapper = cart.mapper := by
    cases hcart
    rfl
  have hspace : ∀ c ∈ " ".toList, Blank.isBlank c = true := by
    intro c hc
    obtain rfl : c = ' ' := by simpa using hc
    decide
  have hend : ∀ c ∈ "\n".toList, Blank.isBlank c = true := by
    intro c hc
    obtain rfl : c = '\n' := by simpa using hc
    decide
  obtain ⟨b, hb, hsave, hframe⟩ := hrestart files
    { submapper := 4, state := some (" " ++ line ++ "\n") } (Cartridge.blank 4 4 16 128) " " "\n"
    rfl hmapper rfl hspace hend rfl
  exact ⟨start, line, _, b, hstart, hline, rfl, hb, hsave, hframe⟩

end Trace

end RasterIrq
