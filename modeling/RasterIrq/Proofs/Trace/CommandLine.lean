import RasterIrq.Proofs.Fault
import RasterIrq.Proofs.Trace.Items
import RasterIrq.Proofs.Trace.Verification

/-!
# Command lines

Every list of arguments begins with complete items, and then ends, asks for help or is at fault. A
value may look like anything, even like an option, so only what stands in front tells what an
argument is. Items leave the last value of each setting. The first request for help or fault decides
alone, since the options set before it are dropped and the arguments behind it are not looked at.

Results:
1. `Trace.exists_items`: every list of arguments is items up to the first that is none.
2. `Trace.Request.ofArguments_eq_noFrames_iff`: what is refused for its number of frames.
3. `Trace.failure_runArguments_eq_usage_iff`: a run never fails for its arguments.
4. `Trace.commandLine_decided`: the last value of each setting counts, and so does the first fault.
-/

namespace RasterIrq

namespace Trace

/-! ## Whole command lines -/

/-- What stands behind the items: nothing, a request for help or a fault. -/
def Stops (tail : List String) : Prop :=
  tail = [] ∨ (∃ arg ∈ helpFlags, ∃ rest, tail = arg :: rest) ∨ ∃ e, Faulty tail e

/-- Every command line begins with items that nothing else follows than its end, a request for help
or a fault. -/
theorem exists_items : ∀ args : List String,
    ∃ items tail, args = commandLine items ++ tail ∧ Stops tail
  | [] => ⟨[], [], rfl, .inl rfl⟩
  | arg :: rest => by
    by_cases harg : arg ∈ flags
    · obtain ⟨s, rfl⟩ | ⟨s, rfl⟩ | hhelp := mem_flags_iff.mp harg
      · match rest with
        | [] => exact ⟨[], _, rfl, .inr (.inr ⟨_, .missing s⟩)⟩
        | text :: rest =>
          -- The value is not compared with any flag.
          obtain htakes | ⟨cause, hrefuses⟩ := s.takes_or_refuses text
          · obtain ⟨items, tail, rfl, hstops⟩ := exists_items rest
            exact ⟨.setting s text htakes :: items, tail, rfl, hstops⟩
          · exact ⟨[], _, rfl, .inr (.inr ⟨_, .invalid rest hrefuses⟩)⟩
      · obtain ⟨items, tail, rfl, hstops⟩ := exists_items rest
        exact ⟨.switch s :: items, tail, rfl, hstops⟩
      · exact ⟨[], _, rfl, .inr (.inl ⟨arg, hhelp, rest, rfl⟩)⟩
    · exact ⟨[], _, rfl, .inr (.inr ⟨_, .unknown rest harg⟩)⟩

theorem Request.ofArguments_append (items : List Item) (tail : List String) :
    ofArguments (commandLine items ++ tail) = read (Options.ofItems items) tail := by
  rw [ofArguments, read_append, foldl_set]

theorem Request.ofArguments_commandLine (items : List Item) :
    ofArguments (commandLine items)
      = if (Options.ofItems items).frames = 0 then .error .noFrames
        else .ok (run (Options.ofItems items)) := by
  have happend := ofArguments_append items []
  rwa [List.append_nil, read] at happend

/-- Only a line of items is refused for its number of frames. -/
theorem Request.ofArguments_eq_noFrames_iff {args : List String} :
    ofArguments args = .error .noFrames ↔
      ∃ items, args = commandLine items ∧ (Options.ofItems items).frames = 0 := by
  constructor
  · intro h
    obtain ⟨items, tail, rfl, hstops⟩ := exists_items args
    rw [ofArguments_append] at h
    obtain rfl | ⟨arg, hhelp, rest, rfl⟩ | ⟨e, hfaulty⟩ := hstops
    · -- Only at the end of the arguments are the frames looked at.
      refine ⟨items, List.append_nil _, ?_⟩
      rw [read] at h
      by_contra hframes
      rw [if_neg hframes] at h
      cases h
    · rw [read_help _ hhelp] at h
      cases h
    · rw [read_of_faulty _ hfaulty] at h
      cases h
      cases hfaulty
  · rintro ⟨items, rfl, hframes⟩
    rw [ofArguments_commandLine, if_pos hframes]

/-! ## Runs -/

theorem cartridge_ne_usage (files : Files) (o : Options) (e : UsageError) :
    cartridge files o ≠ .error (.usage e) := by
  intro h
  unfold cartridge at h
  split at h
  · cases h
  · split at h
    · cases h
    · obtain ⟨_, himage⟩ := exists_of_mapError_eq_error h
      cases himage

theorem newBus_ne_usage (files : Files) (o : Options) (e : UsageError) :
    newBus files o ≠ .error (.usage e) := by
  intro h
  obtain hcart | ⟨cart, -, hlater⟩ := error_of_bind_eq_error h
  · exact cartridge_ne_usage files o e hcart
  · obtain hboard | ⟨board, -, hbus⟩ := error_of_bind_eq_error hlater
    · obtain ⟨_, hnumber⟩ := exists_of_mapError_eq_error hboard
      cases hnumber
    · cases hbus

theorem restoreState_ne_usage (o : Options) (b : Bus) (e : UsageError) :
    restoreState o b ≠ .error (.usage e) := by
  intro h
  unfold restoreState at h
  split at h
  · cases h
  · split at h
    · cases h
    · obtain ⟨_, hrefused⟩ := exists_of_mapError_eq_error (eq_error_of_map_eq_error h)
      cases hrefused

theorem buildBus_ne_usage (files : Files) (o : Options) (e : UsageError) :
    buildBus files o ≠ .error (.usage e) := by
  intro h
  obtain hnew | ⟨new, -, hlater⟩ := error_of_bind_eq_error h
  · exact newBus_ne_usage files o e hnew
  · obtain hrestored | ⟨restored, -, harmed⟩ := error_of_bind_eq_error hlater
    · exact restoreState_ne_usage o new e hrestored
    · cases harmed

/-- No run fails for what a command line can be refused for. -/
theorem failure_run_ne_usage (files : Files) (o : Options) (e : UsageError) :
    (run files o).failure ≠ some (.usage e) := by
  intro h
  cases hbuild : buildBus files o with
  | error failure =>
    rw [run, hbuild] at h
    cases h
    exact buildBus_ne_usage files o e hbuild
  | ok start =>
    -- With a bus there is no failure at all, since the check of the record passes.
    cases hverify : o.verifyState with
    | false =>
      rw [(failure_run_eq_none_iff hverify).mpr ⟨start, hbuild⟩] at h
      cases h
    | true =>
      rw [run_with_check hbuild hverify (verifyState_eq_ok hbuild)] at h
      cases h

/-- What a command line is refused for is found by reading it. -/
theorem failure_runArguments_eq_usage_iff {files : Files} {args : List String} {e : UsageError} :
    (runArguments files args).failure = some (.usage e) ↔ Request.ofArguments args = .error e := by
  rw [runArguments]
  cases Request.ofArguments args with
  | error e' => simp
  | ok request =>
    cases request with
    | help => simp
    | run o => simpa using failure_run_ne_usage files o e

/-- A line of items runs with the last value of each setting, and with its default where no item
names it, unless that leaves no frame; in another order it asks for the same run, as long as items
of one option stay in order. A request for help or a fault behind the items decides alone what is
printed and what the program exits with, whatever stands behind it. There are no other command
lines, so only a line of items is refused for its number of frames. -/
theorem commandLine_decided (files : Files) :
    (∀ items : List Item, runArguments files (commandLine items)
      = if (Options.ofItems items).frames = 0 then
          { lines := [], failure := some (.usage .noFrames) }
        else run files (Options.ofItems items)) ∧
    (∀ items items' : List Item, Reordered items items' →
      Request.ofArguments (commandLine items) = Request.ofArguments (commandLine items') ∧
      runArguments files (commandLine items) = runArguments files (commandLine items')) ∧
    (∀ (items : List Item) (arg : String) (rest : List String), arg ∈ helpFlags →
      let printed := runArguments files (commandLine items ++ arg :: rest)
      printed = { lines := usage } ∧ printed.errorText? = none ∧ printed.exitCode = 0) ∧
    (∀ (items : List Item) (tail : List String) (e : UsageError), Faulty tail e →
      let printed := runArguments files (commandLine items ++ tail)
      printed = { lines := [], failure := some (.usage e) } ∧
      printed.errorText? = some (Failure.usage e).report ∧ printed.exitCode = 1) ∧
    (∀ args, ∃ items tail, args = commandLine items ++ tail ∧ Stops tail) ∧
    ∀ args, (runArguments files args).failure = some (.usage .noFrames) ↔
      ∃ items, args = commandLine items ∧ (Options.ofItems items).frames = 0 := by
  refine ⟨fun items => ?_, fun items items' hreordered => ?_, fun items arg rest hhelp => ?_,
    fun items tail e hfaulty => ?_, exists_items, fun args => ?_⟩
  · rw [runArguments, Request.ofArguments_commandLine]
    by_cases hframes : (Options.ofItems items).frames = 0
    · rw [if_pos hframes, if_pos hframes]
    · rw [if_neg hframes, if_neg hframes]
  · have hsame : Request.ofArguments (commandLine items)
        = Request.ofArguments (commandLine items') := by
      rw [Request.ofArguments_commandLine, Request.ofArguments_commandLine,
        Options.ofItems_of_reordered hreordered]
    exact ⟨hsame, by rw [runArguments, hsame, runArguments]⟩
  · intro printed
    have hprinted : printed = { lines := usage } := by
      show runArguments files (commandLine items ++ arg :: rest) = _
      rw [runArguments, Request.ofArguments_append, Request.read_help _ hhelp]
    rw [hprinted]
    exact ⟨rfl, rfl, rfl⟩
  · intro printed
    have hprinted : printed = { lines := [], failure := some (.usage e) } := by
      show runArguments files (commandLine items ++ tail) = _
      rw [runArguments, Request.ofArguments_append, Request.read_of_faulty _ hfaulty]
    rw [hprinted]
    exact ⟨rfl, rfl, rfl⟩
  · rw [failure_runArguments_eq_usage_iff, Request.ofArguments_eq_noFrames_iff]

/-- A board number is given twice, and a value looks like an option. The lines behind change the
order, ask for help after a number of frames that is none, name a latch that is too large, and leave
no frame. -/
theorem commandLine_decided_repeated :
    let files : Files := fun _ => .error "no file was named"
    let args := ["--mapper", "222", "--rom", "--help", "--no-ack", "--mapper", "+4"]
    runArguments files args
      = run files { rom := some "--help", mapper := 4, acknowledge := false } ∧
    Request.ofArguments args
      = Request.ofArguments ["--no-ack", "--mapper", "222", "--mapper", "+4", "--rom", "--help"] ∧
    runArguments files (args ++ ["--frames", "0", "-h", "--latch"]) = { lines := usage } ∧
    runArguments files (args ++ ["--latch", "256", "--help"])
      = { lines := [], failure := some (.usage (.invalidValue .latch "256" .tooLarge)) } ∧
    (runArguments files (args ++ ["--latch", "256", "--help"])).exitCode = 1 ∧
    (runArguments files (args ++ ["--frames", "0"])).failure = some (.usage .noFrames) := by
  intro files args
  let items : List Item := [.setting .mapper "222" (by decide), .setting .rom "--help" (by decide),
    .switch .noAck, .setting .mapper "+4" (by decide)]
  let reordered : List Item := [.switch .noAck, .setting .mapper "222" (by decide),
    .setting .mapper "+4" (by decide), .setting .rom "--help" (by decide)]
  let noFrames : Item := .setting .frames "0" (by decide)
  obtain ⟨hitems, hreordered, hhelp, hfaulty, -, hframes⟩ := commandLine_decided files
  have htooLarge : Setting.latch.Refuses "256" .tooLarge :=
    ⟨UInt8.size, rfl, .tooLarge (by decide)⟩
  obtain ⟨hrefused, -, hexit⟩ := hfaulty items _ _ (.invalid ["--help"] htooLarge)
  refine ⟨(hitems items).trans (if_neg (by decide)), (hreordered items reordered (by decide)).1,
    (hhelp (items ++ [noFrames]) "-h" ["--latch"] (by decide)).1, hrefused, hexit,
    (hframes _).mpr ⟨items ++ [noFrames], rfl, by decide⟩⟩

end Trace

end RasterIrq
