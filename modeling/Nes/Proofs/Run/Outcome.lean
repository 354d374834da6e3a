/-
  Outcomes: what the program comes to, for every command line, environment and set of files.

  A session takes its turns one by one and need not end, so its outcome is given within a number of
  turns.  Here it is told by the run of the machine instead:

  1. **Turns**: what has been written stands before what comes (`playOn_eq`); a turn goes on where a
     step succeeds, and ends the session at the limit or where a step fails.
  2. **Sessions**: by induction, as long as no step fails and the limit is not reached, a session is
     the run of its machine, and it has not ended before (`playFor_run`, `playFor_eq_none`).
  3. **Starts**: the machine before the first step is the console after a reset (`machineOf_eq`);
     what is reported until then is no error and no trace line (`load_records`).
  4. **Programs**: so a program ends at its limit, or at the first failure of a step, or never
     (`outcome_of_program`).  When it ends is told by `EndsAfter`, what it has written until then by
     `told`, and what is written of the failure by `failureTold`.
-/
import Nes.Proofs.Cartridge.Window
import Nes.Proofs.Run.Failures
import Nes.Proofs.Run.Printing

namespace Nes.Run

open Nes.Cpu (Machine Registers StepError)
open Nes.Text (decimal)

@[simp] theorem transcript_append (verbosity : Verbosity) (records more : List Record) :
    transcript verbosity (records ++ more) =
      transcript verbosity records ++ transcript verbosity more := by
  rw [transcript, Verbosity.keep, List.filter_append, List.map_append]
  rfl

/-- An outcome behind lines that have been written before. -/
def Outcome.behind (lines : List Line) (outcome : Outcome) : Outcome :=
  { outcome with lines := lines ++ outcome.lines }

/-- Lines that come behind others stand behind both. -/
theorem Outcome.behind_comp (lines more : List Line) :
    Outcome.behind lines ∘ Outcome.behind more = Outcome.behind (lines ++ more) := by
  funext outcome
  simp [behind]

namespace Session

/-! ## Turns -/

section

variable {turns : Nat} {s : Session}

/-- What has been written stands before what comes. -/
theorem playOn_eq (turns : Nat) (written : List Line) (s : Session) :
    playOn turns written s = (playFor turns s).map (Outcome.behind written.reverse) := by
  induction turns generalizing written s with
  | zero => rfl
  | succ turns ih =>
    rw [playFor, playOn, playOn]
    cases s.turn with
    | ended status lines =>
      simp [Outcome.behind]
    | goesOn lines next =>
      dsimp only
      rw [ih, ih (lines.reverseAux []), Option.map_map, Outcome.behind_comp]
      simp

theorem playFor_of_ended {status : UInt8} {lines : List Line} (h : s.turn = .ended status lines)
    (turns : Nat) : playFor (turns + 1) s = some ⟨status, lines⟩ := by
  rw [playFor, playOn, h]
  simp

theorem playFor_of_goesOn {lines : List Line} {next : Session} (h : s.turn = .goesOn lines next)
    (turns : Nat) : playFor (turns + 1) s = (playFor turns next).map (Outcome.behind lines) := by
  rw [playFor, playOn, h]
  dsimp only
  rw [playOn_eq]
  simp

end

section

variable {m : Machine MemoryMap} {verbosity : Verbosity} {limit : Option Nat} {steps : Nat}

theorem mayStep_iff :
    (Session.mk m verbosity limit steps).mayStep = true ↔
      ∀ most, limit = some most → steps < most := by
  cases limit with
  | none => simp [mayStep]
  | some most => simp [mayStep]

/-- A turn in which a step succeeds goes on. -/
theorem turn_of_ok {cycles : UInt8}
    (hmay : ∀ most, limit = some most → steps < most)
    (h : (m.step verbosity.tracing).answer.outcome = .ok cycles) :
    (Session.mk m verbosity limit steps).turn =
      .goesOn (transcript verbosity (m.step verbosity.tracing).records)
        ⟨m.next verbosity.tracing, verbosity, limit, steps + 1⟩ := by
  rw [turn, if_pos (mayStep_iff.mpr hmay)]
  dsimp only
  rw [h]
  rfl

/-- A turn in which a step fails ends the session. -/
theorem turn_of_error {failure : StepError}
    (hmay : ∀ most, limit = some most → steps < most)
    (h : (m.step verbosity.tracing).answer.outcome = .error failure) :
    (Session.mk m verbosity limit steps).turn =
      .ended 1 (transcript verbosity (m.step verbosity.tracing).records ++
        failureLines failure (m.next verbosity.tracing).registers) := by
  rw [turn, if_pos (mayStep_iff.mpr hmay)]
  dsimp only
  rw [h]
  rfl

/-- At the limit there is no step any more. -/
theorem turn_of_limit :
    (Session.mk m verbosity (some steps) steps).turn =
      .ended 0 (transcript verbosity [(Session.mk m verbosity (some steps) steps).stopped]) := by
  have hnot : ¬ (Session.mk m verbosity (some steps) steps).mayStep = true :=
    fun h => absurd (mayStep_iff.mp h steps rfl) (Nat.lt_irrefl steps)
  rw [turn, if_neg hnot]

end

/-! ## Sessions -/

section

variable {m : Machine MemoryMap} {verbosity : Verbosity} {limit : Option Nat} {steps count : Nat}

/-- **As long as no step fails and the limit is not reached, a session is the run of its machine**:
    it has written the records of the run, and goes on from the machine at its end. -/
theorem playFor_run (hrun : (Machine.run verbosity.tracing count m).failure = none)
    (hlimit : ∀ most, limit = some most → steps + count ≤ most) (turns : Nat) :
    playFor (count + turns) ⟨m, verbosity, limit, steps⟩ =
      (playFor turns ⟨(Machine.run verbosity.tracing count m).machine, verbosity, limit,
        steps + count⟩).map
        (Outcome.behind
          (transcript verbosity (Machine.run verbosity.tracing count m).records)) := by
  induction count generalizing m steps with
  | zero =>
    have hnothing : Outcome.behind (transcript verbosity []) = id := rfl
    rw [Nat.zero_add, Nat.add_zero]
    show _ = Option.map (Outcome.behind (transcript verbosity [])) _
    rw [hnothing, Option.map_id]
    rfl
  | succ count ih =>
    cases houtcome : (m.step verbosity.tracing).answer.outcome with
    | error failure =>
      rw [Machine.run_of_error houtcome] at hrun
      cases hrun
    | ok cycles =>
      rw [Machine.run_of_ok houtcome] at hrun ⊢
      have hmay : ∀ most, limit = some most → steps < most := by
        intro most hmost
        have := hlimit most hmost
        omega
      have hlimit' : ∀ most, limit = some most → steps + 1 + count ≤ most := by
        intro most hmost
        have := hlimit most hmost
        omega
      have hcount : count + 1 + turns = count + turns + 1 := Nat.add_right_comm count 1 turns
      have hsteps : steps + 1 + count = steps + (count + 1) := Nat.add_right_comm steps 1 count
      rw [hcount, playFor_of_goesOn (turn_of_ok hmay houtcome), ih hrun hlimit', hsteps,
        Option.map_map, Outcome.behind_comp, ← transcript_append]

/-- An outcome stays the same however many more turns there might be. -/
theorem playFor_of_le {turns more : Nat} {s : Session} {outcome : Outcome} (hle : turns ≤ more)
    (h : playFor turns s = some outcome) : playFor more s = some outcome := by
  induction hle with
  | refl => exact h
  | step hle ih => exact playFor_succ ih

/-- Within that many turns it has not ended. -/
theorem playFor_eq_none (hrun : (Machine.run verbosity.tracing count m).failure = none)
    (hlimit : ∀ most, limit = some most → steps + count ≤ most) {turns : Nat}
    (hturns : turns ≤ count) : playFor turns ⟨m, verbosity, limit, steps⟩ = none := by
  have hnone : playFor count ⟨m, verbosity, limit, steps⟩ = none := playFor_run hrun hlimit 0
  cases hturn : playFor turns ⟨m, verbosity, limit, steps⟩ with
  | none => rfl
  | some outcome =>
    rw [playFor_of_le hturns hturn] at hnone
    cases hnone

/-- **A session that ends in the turn after some steps** ends there and not before, with the records
    of the run and what the last turn writes. -/
theorem playFor_of_end (hrun : (Machine.run verbosity.tracing count m).failure = none)
    (hlimit : ∀ most, limit = some most → steps + count ≤ most) {status : UInt8}
    {lines : List Line}
    (hend : (Session.mk (Machine.run verbosity.tracing count m).machine verbosity limit
      (steps + count)).turn = .ended status lines) (turns : Nat) :
    playFor turns ⟨m, verbosity, limit, steps⟩ =
      if count < turns then
        some ⟨status,
          transcript verbosity (Machine.run verbosity.tracing count m).records ++ lines⟩
      else none := by
  by_cases hturns : count < turns
  · obtain ⟨more, rfl⟩ : ∃ more, turns = count + (more + 1) := ⟨turns - count - 1, by omega⟩
    rw [if_pos hturns, playFor_run hrun hlimit, playFor_of_ended hend]
    rfl
  · rw [if_neg hturns]
    exact playFor_eq_none hrun hlimit (Nat.le_of_not_lt hturns)

end

end Session

/-! ## Starts -/

/-- The machine before the first step: it has been reset with the cartridge in its slot, and PC
    stands at the start address, if one is given. -/
def firstMachine (cartridge : Cartridge) (startPc : Option UInt16) : Machine MemoryMap :=
  let map := MemoryMap.ofCartridge cartridge
  ⟨{ Registers.powerUp with
      pc := startPc.getD (word (map.read 0xFFFC) (map.read 0xFFFD))
      cycles := 7 }, map⟩

/-- A reset leads to that machine and leaves no trace line. -/
theorem machineOf_eq (cartridge : Cartridge) (startPc : Option UInt16) :
    let reset := Session.machineOf cartridge startPc
    Machine.mk reset.answer reset.bus = firstMachine cartridge startPc ∧
      reset.records.filter Record.isTrace = [] := by
  have hsilent := Registers.neverReports_reset.not_isTrace (MemoryMap.ofCartridge cartridge)
  cases startPc with
  | none => exact ⟨rfl, hsilent⟩
  | some pc => exact ⟨rfl, hsilent⟩

/-- What is reported of an image is reported by the cartridge, and is no error. -/
theorem remarks_records (image : ByteArray) (outcome : Except ImageError Cartridge) :
    ∀ record ∈ Cartridge.remarks image outcome,
      record.source = .cartridge ∧ record.level ≠ .error := by
  intro record hrecord
  rcases List.mem_append.mp hrecord with hheader | hbanner
  · rw [Header.remarks] at hheader
    split at hheader
    · obtain rfl := List.mem_singleton.mp hheader
      exact ⟨rfl, nofun⟩
    · cases hheader
  · cases outcome with
    | error cause => cases hbanner
    | ok cartridge =>
      obtain rfl := List.mem_singleton.mp hbanner
      exact ⟨rfl, nofun⟩

/-- What is reported while loading is reported by the cartridge, and is no error. -/
theorem load_records (files : String → Except FileError ByteArray) (path : String) :
    ∀ record ∈ (load files path).records,
      record.source = .cartridge ∧ record.level ≠ .error := by
  intro record hrecord
  rw [load] at hrecord
  cases hfile : files path with
  | error cause =>
    rw [hfile] at hrecord
    cases hrecord
  | ok image =>
    rw [hfile] at hrecord
    rcases List.mem_cons.mp hrecord with rfl | hremark
    · exact ⟨rfl, nofun⟩
    · exact remarks_records image _ record hremark

theorem isTrace_load (files : String → Except FileError ByteArray) (path : String) :
    (load files path).records.filter Record.isTrace = [] := by
  rw [List.filter_eq_nil_iff]
  intro record hrecord htrace
  have hsource := (load_records files path record hrecord).1
  rw [of_decide_eq_true htrace] at hsource
  cases hsource

/-- **The message of a failure to load names the file.** -/
theorem load_error_names {files : String → Except FileError ByteArray} {path : String}
    {cause : LoadError} (h : (load files path).outcome = .error cause) :
    ∃ before after, cause.message = before ++ path ++ after := by
  rw [load] at h
  cases hfile : files path with
  | error why =>
    rw [hfile] at h
    cases h
    exact ⟨"unable to open ", ": " ++ why.message, String.append_assoc⟩
  | ok image =>
    rw [hfile] at h
    dsimp only at h
    cases himage : Cartridge.ofImage image with
    | error why =>
      rw [himage] at h
      cases h
      exact ⟨"invalid ROM image ", ": " ++ why.message, String.append_assoc⟩
    | ok cartridge =>
      rw [himage] at h
      cases h

/-! ## Programs -/

/-- What is reported before the first step, of the cartridge and of the reset. -/
def opening (files : String → Except FileError ByteArray) (settings : Settings)
    (cartridge : Cartridge) : List Record :=
  (load files settings.romPath).records ++
    (Session.machineOf cartridge settings.startPc).records

/-- What the program has written after so many steps, if none of them fails. -/
def told (files : String → Except FileError ByteArray) (settings : Settings)
    (cartridge : Cartridge) (count : Nat) : List Line :=
  transcript settings.verbosity (opening files settings cartridge ++
    (Machine.run settings.verbosity.tracing count
      (firstMachine cartridge settings.startPc)).records)

/-- The record that a machine has been stopped after so many steps. -/
def stoppedAfter (count : Nat) (m : Machine MemoryMap) : Record :=
  ⟨.info, .program, "stopped after " ++ decimal count ++ " instructions, " ++
    decimal m.registers.cycles.toNat ++ " cycles"⟩

/-- How that record is written. -/
theorem ofRecord_stoppedAfter (count : Nat) (m : Machine MemoryMap) :
    Line.ofRecord (stoppedAfter count m) =
      .err ("\x1b[32mINFO \x1b[0m nes6502: stopped after " ++ decimal count ++
        " instructions, " ++ decimal m.registers.cycles.toNat ++ " cycles") := by
  have hsource : (stoppedAfter count m).source ≠ .trace := nofun
  have hfront : tag .info ++ " " ++ Source.program.name ++ ": " ++ "stopped after " =
      "\x1b[32mINFO \x1b[0m nes6502: stopped after " := by decide
  rw [Line.ofRecord, if_neg hsource, ← hfront]
  simp only [stoppedAfter, String.append_assoc]

/-- The program takes so many steps and then ends, with that status and those lines. -/
def EndsAfter (steps : Nat) (args : List String) (env : String → Option String)
    (files : String → Except FileError ByteArray) (status : UInt8) (lines : List Line) : Prop :=
  ∀ turns, outcomeWithin turns args env files =
    if steps < turns then some ⟨status, lines⟩ else none

section

variable {args : List String} {env : String → Option String}
  {files : String → Except FileError ByteArray} {settings : Settings} {cartridge : Cartridge}
  {count : Nat}

/-- Before the first step nothing goes to standard output, and then the trace lines do. -/
theorem stdout_told
    (hrun : (Machine.run false count (firstMachine cartridge settings.startPc)).failure = none) :
    stdout (told files settings cartridge count) =
      if settings.verbosity = .upTo .trace then
        (List.range count).map fun i =>
          (Machine.run false i (firstMachine cartridge settings.startPc)).machine.traceText
      else [] := by
  have hopening : (opening files settings cartridge).filter Record.isTrace = [] := by
    rw [opening, List.filter_append, isTrace_load, (machineOf_eq cartridge settings.startPc).2]
    rfl
  rw [told, transcript_append, stdout_append, stdout_transcript_of_silent _ hopening,
    List.nil_append, stdout_run _ _ _ hrun]

/-- A step that fails writes nothing to standard output. -/
theorem stdout_step_of_error {m : Machine MemoryMap} {verbosity : Verbosity} {failure : StepError}
    (h : (m.step verbosity.tracing).answer.outcome = .error failure) (opcode : UInt8)
    (registers : Registers) :
    stdout (transcript verbosity (m.step verbosity.tracing).records ++
      failureTold opcode registers) = [] := by
  rw [stdout_append, stdout_transcript_of_silent verbosity (m.isTrace_step_of_error _ h)]
  rfl

/-- That the program has been stopped is told at the verbosities that admit information. -/
theorem stoppedAfter_mem_iff (m : Machine MemoryMap) :
    Line.err ("\x1b[32mINFO \x1b[0m nes6502: stopped after " ++ decimal count ++
          " instructions, " ++ decimal m.registers.cycles.toNat ++ " cycles") ∈
        told files settings cartridge count ++
          transcript settings.verbosity [stoppedAfter count m] ↔
      settings.verbosity ∈ [.upTo .info, .upTo .debug, .upTo .trace] := by
  have hsource : (stoppedAfter count m).source ≠ .trace := nofun
  rw [← ofRecord_stoppedAfter, told, ← transcript_append, mem_transcript_iff settings.verbosity
    hsource (List.mem_append_right _ (List.mem_singleton_self _))]
  exact admits_info_iff

/-- A program whose cartridge has been loaded is a session that begins with the first machine. -/
theorem outcomeWithin_of_loaded (hsettings : Settings.read args env = .ok settings)
    (hloaded : (load files settings.romPath).outcome = .ok cartridge) (turns : Nat) :
    outcomeWithin turns args env files =
      (Session.playFor turns ⟨firstMachine cartridge settings.startPc, settings.verbosity,
        settings.maxSteps.map UInt64.toNat, 0⟩).map
        (Outcome.behind (transcript settings.verbosity (opening files settings cartridge))) := by
  rw [outcomeWithin, Session.start, hsettings]
  dsimp only
  rw [hloaded]
  dsimp only
  rw [(machineOf_eq cartridge settings.startPc).1, opening, transcript_append]
  rfl

/-- A program whose session ends in the turn after some steps ends after these steps. -/
theorem endsAfter_of_turn (hsettings : Settings.read args env = .ok settings)
    (hloaded : (load files settings.romPath).outcome = .ok cartridge)
    (hrun : (Machine.run false count (firstMachine cartridge settings.startPc)).failure = none)
    (hlimit : ∀ most, settings.maxSteps.map UInt64.toNat = some most → count ≤ most)
    {status : UInt8} {lines : List Line}
    (hend : (Session.mk (Machine.run false count (firstMachine cartridge settings.startPc)).machine
      settings.verbosity (settings.maxSteps.map UInt64.toNat) count).turn = .ended status lines) :
    EndsAfter count args env files status (told files settings cartridge count ++ lines) := by
  intro turns
  obtain ⟨hmachine, -, hfailure⟩ := (firstMachine cartridge settings.startPc).run_eq
    settings.verbosity.tracing false count
  have hsteps : 0 + count = count := Nat.zero_add count
  rw [← hmachine] at hend
  have hturns := Session.playFor_of_end (hfailure.trans hrun) (by rwa [hsteps]) (by rwa [hsteps])
    turns
  rw [outcomeWithin_of_loaded hsettings hloaded, hturns]
  split
  · rw [told, transcript_append, List.append_assoc]
    rfl
  · rfl

/-- **A program whose limit comes before any failure** stops there. -/
theorem endsAfter_of_limit {most : UInt64} (hsettings : Settings.read args env = .ok settings)
    (hloaded : (load files settings.romPath).outcome = .ok cartridge)
    (hmost : settings.maxSteps = some most)
    (hrun : (Machine.run false most.toNat
      (firstMachine cartridge settings.startPc)).failure = none) :
    EndsAfter most.toNat args env files 0 (told files settings cartridge most.toNat ++
      transcript settings.verbosity [stoppedAfter most.toNat
        (Machine.run false most.toNat (firstMachine cartridge settings.startPc)).machine]) := by
  refine endsAfter_of_turn hsettings hloaded hrun ?_ ?_
  · intro limit hlimit
    rw [hmost] at hlimit
    cases hlimit
    exact Nat.le_refl _
  · rw [hmost]
    exact Session.turn_of_limit

/-- **A program in which a step fails before the limit** ends with the failure and the registers
    before that step. -/
theorem endsAfter_of_failure {failure : StepError}
    (hsettings : Settings.read args env = .ok settings)
    (hloaded : (load files settings.romPath).outcome = .ok cartridge)
    (hfails : Machine.FailsAfter false count (firstMachine cartridge settings.startPc) failure)
    (hlimit : ∀ most : UInt64, settings.maxSteps = some most → count < most.toNat) :
    let m := (Machine.run false count (firstMachine cartridge settings.startPc)).machine
    EndsAfter count args env files 1 (told files settings cartridge count ++
      (transcript settings.verbosity (m.step settings.verbosity.tracing).records ++
        failureTold (m.bus.read m.registers.pc) m.registers)) := by
  intro m
  have hstep : (m.step settings.verbosity.tracing).answer.outcome = .error failure :=
    (m.outcome_eq _ false).trans hfails.step_fails
  have hmay : ∀ most, settings.maxSteps.map UInt64.toNat = some most → count < most := by
    intro most hmost
    obtain ⟨limit, hother, rfl⟩ := Option.map_eq_some_iff.mp hmost
    exact hlimit limit hother
  refine endsAfter_of_turn hsettings hloaded hfails.run_failure
    (fun most hmost => Nat.le_of_lt (hmay most hmost)) ?_
  rw [Session.turn_of_error hmay hstep, Machine.next_of_error hstep, eq_failureAt hstep,
    failureLines_eq]

/-- **A program without a limit in which no step fails** never ends. -/
theorem outcomeWithin_of_endless (hsettings : Settings.read args env = .ok settings)
    (hloaded : (load files settings.romPath).outcome = .ok cartridge)
    (hnone : settings.maxSteps = none)
    (hnever : ∀ k, (Machine.run false k (firstMachine cartridge settings.startPc)).failure = none)
    (turns : Nat) : outcomeWithin turns args env files = none := by
  have hrun := ((firstMachine cartridge settings.startPc).run_eq
    settings.verbosity.tracing false turns).2.2.trans (hnever turns)
  have hlimit : ∀ most, settings.maxSteps.map UInt64.toNat = some most → 0 + turns ≤ most := by
    rw [hnone]
    exact nofun
  rw [outcomeWithin_of_loaded hsettings hloaded,
    Session.playFor_eq_none hrun hlimit (Nat.le_refl turns)]
  rfl

end

/-! ### A short program -/

/-- A console whose window shows idle instructions, if it starts two bytes before the end of the
    window, gets to the beginning of memory, where there is nothing to execute. -/
theorem failsAfter_two_idle {c : Cartridge}
    (hidle : ∀ addr : UInt16, 0xC000 ≤ addr.toNat → c.read addr = 0xEA) :
    Machine.FailsAfter false 2 (firstMachine c (some 0xFFFE))
      (.unimplementedOpcode 0x00 .softwareInterrupt 0) ∧
    (Machine.run false 2 (firstMachine c (some 0xFFFE))).machine =
      ⟨{ Registers.powerUp with stepCycles := 2, cycles := 11 }, .ofCartridge c⟩ := by
  have hpeek : ∀ addr : UInt16, 0xC000 ≤ addr.toNat →
      Bus.peek (MemoryMap.ofCartridge c) addr = 0xEA := by
    intro addr haddr
    rw [Bus.peek_memoryMap, MemoryMap.read_of_le _ (by omega), MemoryMap.upper, if_neg (by omega)]
    exact hidle addr haddr
  let between : Machine MemoryMap :=
    ⟨{ Registers.powerUp with pc := 0xFFFF, stepCycles := 2, cycles := 9 }, .ofCartridge c⟩
  let last : Machine MemoryMap :=
    ⟨{ Registers.powerUp with stepCycles := 2, cycles := 11 }, .ofCartridge c⟩
  have hfirst : Machine.Reaches false 1 (firstMachine c (some 0xFFFE)) between :=
    .idle false (hpeek 0xFFFE (by decide))
  have hsecond : Machine.Reaches false 1 between last := .idle false (hpeek 0xFFFF (by decide))
  obtain ⟨hnone, -, hmachine⟩ := (hfirst.trans hsecond).run_eq
  refine ⟨⟨hnone, ?_⟩, hmachine⟩
  rw [hmachine]
  exact congrArg Cpu.Stepped.outcome (Machine.step_of_zero false rfl)

/-! ### Every program -/

/-- **The outcome of the program**, for every command line, every environment and all files.

    Settings that cannot be read and cartridges that cannot be loaded end it at once.  Otherwise let
    `s k` be the machine that `k` steps lead to from the first.  If the limit comes before the first
    failure of a step, the program stops there; if the failure comes first, it fails, and its last
    two lines tell the failure and the registers of `s k`; and with neither it never ends. -/
theorem outcome_of_program (args : List String) (env : String → Option String)
    (files : String → Except FileError ByteArray) :
    (∀ cause, Settings.read args env = .error cause →
      let lines := [Line.err (cause.message ++ "\n\n" ++ usage)]
      (∀ turns, outcomeWithin turns args env files = some ⟨2, lines⟩) ∧ stdout lines = []) ∧
    ∀ settings, Settings.read args env = .ok settings →
      -- a file that cannot be loaded is named once, whatever the verbosity
      (∀ cause, (load files settings.romPath).outcome = .error cause →
        let before := transcript settings.verbosity (load files settings.romPath).records
        let lines := before ++ [.err ("\x1b[1;31mERROR\x1b[0m " ++ cause.message)]
        (∀ turns, outcomeWithin turns args env files = some ⟨1, lines⟩) ∧ stdout lines = [] ∧
          (∀ message, .err ("\x1b[1;31mERROR\x1b[0m " ++ message) ∉ before) ∧
          ∃ front back, cause.message = front ++ settings.romPath ++ back) ∧
      ∀ cartridge, (load files settings.romPath).outcome = .ok cartridge →
        let first := firstMachine cartridge settings.startPc
        let s := fun k => (Machine.run false k first).machine
        let traced := fun k => if settings.verbosity = .upTo .trace then
          (List.range k).map fun i => (s i).traceText else []
        -- the limit comes first
        (∀ most : UInt64, settings.maxSteps = some most →
          (Machine.run false most.toNat first).failure = none →
          let report := stoppedAfter most.toNat (s most.toNat)
          let lines := told files settings cartridge most.toNat ++
            transcript settings.verbosity [report]
          EndsAfter most.toNat args env files 0 lines ∧ stdout lines = traced most.toNat ∧
            (.err ("\x1b[32mINFO \x1b[0m nes6502: stopped after " ++ decimal most.toNat ++
                " instructions, " ++ decimal (s most.toNat).registers.cycles.toNat ++
                " cycles") ∈ lines ↔
              settings.verbosity ∈ [.upTo .info, .upTo .debug, .upTo .trace])) ∧
        -- the failure comes first, and is told whatever the verbosity
        (∀ k failure, Machine.FailsAfter false k first failure →
          (∀ most : UInt64, settings.maxSteps = some most → k < most.toNat) →
          let r := (s k).registers
          let opcode := (s k).bus.read r.pc
          let last := transcript settings.verbosity ((s k).step settings.verbosity.tracing).records
          let lines := told files settings cartridge k ++ (last ++ failureTold opcode r)
          EndsAfter k args env files 1 lines ∧ stdout lines = traced k ∧
            failure = Cpu.failureAt opcode r.pc ∧
            -- nothing else is told by the same lines
            ∀ opcode' r', failureTold opcode' r' = failureTold opcode r →
              opcode' = opcode ∧ r' = { r with stepCycles := r'.stepCycles }) ∧
        -- there is neither
        (settings.maxSteps = none → (∀ k, (Machine.run false k first).failure = none) →
          ∀ turns, outcomeWithin turns args env files = none) ∧
        -- the runs either never fail, or exactly if they are to get past the first failure
        ((∀ count, (Machine.run false count first).failure = none) ∨
          ∃ k failure, Machine.FailsAfter false k first failure ∧
            ∀ count, (Machine.run false count first).failure = none ↔ count ≤ k) := by
  refine ⟨?_, fun settings hsettings => ⟨?_, ?_⟩⟩
  · intro cause hcause lines
    refine ⟨fun turns => ?_, rfl⟩
    rw [outcomeWithin, Session.start, hcause]
  · intro cause hcause before lines
    have hlines : lines = before ++ [.fatal cause.message] := by rw [fatal_eq]
    refine ⟨fun turns => ?_, ?_, ?_, load_error_names hcause⟩
    · rw [outcomeWithin, Session.start, hsettings, hlines]
      dsimp only
      rw [hcause]
    · rw [hlines, stdout_append, stdout_fatal, List.append_nil]
      exact stdout_transcript_of_silent _ (isTrace_load files settings.romPath)
    · intro message hmessage
      rw [← fatal_eq] at hmessage
      obtain ⟨record, hrecord, hline⟩ := List.mem_map.mp hmessage
      have hlevel := (load_records files _ record (List.mem_filter.mp hrecord).1).2
      exact ofRecord_ne_fatal hlevel message hline
  · intro cartridge hcartridge first s traced
    refine ⟨?_, ?_, ?_, ?_⟩
    · intro most hmost hrun report lines
      have hreport : stdout (transcript settings.verbosity [report]) = [] :=
        stdout_transcript_of_silent _ rfl
      refine ⟨endsAfter_of_limit hsettings hcartridge hmost hrun, ?_, stoppedAfter_mem_iff _⟩
      rw [stdout_append, hreport, List.append_nil]
      exact stdout_told hrun
    · intro k failure hfails hlimit r opcode last lines
      have hstep : ((s k).step settings.verbosity.tracing).answer.outcome = .error failure :=
        ((s k).outcome_eq _ false).trans hfails.step_fails
      have hlast : stdout (last ++ failureTold opcode r) = [] := stdout_step_of_error hstep opcode r
      refine ⟨endsAfter_of_failure hsettings hcartridge hfails hlimit, ?_, eq_failureAt hstep,
        fun opcode' r' htold => failureTold_inj htold⟩
      rw [stdout_append, hlast, List.append_nil]
      exact stdout_told hfails.run_failure
    · exact outcomeWithin_of_endless hsettings hcartridge
    · rcases first.goesOn_or_failsAfter false with hgoesOn | ⟨k, failure, hfails⟩
      · exact .inl hgoesOn
      · exact .inr ⟨k, failure, hfails, hfails.failure_eq_none_iff⟩

/-- Two idle instructions at the end of the window, traced: with no ROM path and with no such file
    nothing comes of them; otherwise both are executed, and then the program stops if it is limited
    to two, and fails if it is not. -/
theorem outcome_of_program_two_steps :
    let files := fun path => if path = "game.nes" then Except.ok Cartridge.twoBankImage
      else .error FileError.notFound
    let env := fun (limit : Option String) name =>
      if name = logVariable then some "trace"
      else if name = startPcVariable then some "$FFFE"
      else if name = maxStepsVariable then limit
      else none
    (∃ lines, outcomeWithin 0 [] (env none) files = some ⟨2, lines⟩ ∧ stdout lines = []) ∧
    (∃ lines, outcomeWithin 0 ["none.nes"] (env none) files = some ⟨1, lines⟩ ∧
      .err ("\x1b[1;31mERROR\x1b[0m " ++
        "unable to open none.nes: No such file or directory (os error 2)") ∈ lines) ∧
    (∃ lines, EndsAfter 2 ["game.nes"] (env (some "2")) files 0 lines ∧
      (stdout lines).length = 2 ∧
      .err "\x1b[32mINFO \x1b[0m nes6502: stopped after 2 instructions, 11 cycles" ∈ lines) ∧
    ∃ lines, EndsAfter 2 ["game.nes"] (env none) files 1 lines ∧
      (stdout lines).length = 2 ∧
      .err "\x1b[1;31mERROR\x1b[0m unimplemented opcode $00 (BRK) at $0000" ∈ lines ∧
      .err "\x1b[1;31mERROR\x1b[0m A:00 X:00 Y:00 P:24 [nv-bdIzc] SP:FD CYC:11" ∈ lines := by
  intro files env
  obtain ⟨c, hc, -⟩ := Cartridge.ofImage_of_wellFormed Cartridge.wellFormed_twoBankImage
  have hloaded : (load files "game.nes").outcome = .ok c := by
    have hfile : files "game.nes" = .ok Cartridge.twoBankImage := rfl
    rw [load, hfile]
    dsimp only
    rw [hc]
    rfl
  obtain ⟨hfails, hlast⟩ := failsAfter_two_idle (fun addr => Cartridge.read_twoBankImage hc)
  let m := (Machine.run false 2 (firstMachine c (some 0xFFFE))).machine
  have hm : m = ⟨{ Registers.powerUp with stepCycles := 2, cycles := 11 }, .ofCartridge c⟩ := hlast
  refine ⟨?_, ?_, ?_, ?_⟩
  · obtain ⟨hrefused, -⟩ := outcome_of_program [] (env none) files
    obtain ⟨hends, hsilent⟩ := hrefused .argumentCount rfl
    exact ⟨_, hends 0, hsilent⟩
  · obtain ⟨-, hread⟩ := outcome_of_program ["none.nes"] (env none) files
    obtain ⟨hunloaded, -⟩ := hread ⟨"none.nes", .upTo .trace, some 0xFFFE, none⟩ rfl
    obtain ⟨hends, -⟩ := hunloaded (.unreadable "none.nes" .notFound) rfl
    exact ⟨_, hends 0, List.mem_append_right _ (List.mem_singleton_self _)⟩
  · obtain ⟨-, hread⟩ := outcome_of_program ["game.nes"] (env (some "2")) files
    obtain ⟨-, hplayed⟩ := hread ⟨"game.nes", .upTo .trace, some 0xFFFE, some 2⟩ rfl
    obtain ⟨hstops, -⟩ := hplayed c hloaded
    obtain ⟨hends, hstdout, htold⟩ := hstops 2 rfl hfails.run_failure
    have hline : "\x1b[32mINFO \x1b[0m nes6502: stopped after " ++ decimal 2 ++ " instructions, " ++
        decimal m.registers.cycles.toNat ++ " cycles" =
          "\x1b[32mINFO \x1b[0m nes6502: stopped after 2 instructions, 11 cycles" := by
      have hcycles : m.registers.cycles = 11 := congrArg (fun m => m.registers.cycles) hm
      rw [hcycles]
      decide
    refine ⟨_, hends, ?_, ?_⟩
    · rw [hstdout]
      rfl
    · rw [← hline]
      exact htold.mpr (by decide)
  · obtain ⟨-, hread⟩ := outcome_of_program ["game.nes"] (env none) files
    obtain ⟨-, hplayed⟩ := hread ⟨"game.nes", .upTo .trace, some 0xFFFE, none⟩ rfl
    obtain ⟨-, hfailing, -⟩ := hplayed c hloaded
    obtain ⟨hends, hstdout, -⟩ := hfailing 2 _ hfails nofun
    have htold : failureTold (m.bus.read m.registers.pc) m.registers =
        [.err "\x1b[1;31mERROR\x1b[0m unimplemented opcode $00 (BRK) at $0000",
          .err "\x1b[1;31mERROR\x1b[0m A:00 X:00 Y:00 P:24 [nv-bdIzc] SP:FD CYC:11"] := by
      have hzero : (MemoryMap.ofCartridge c).read Registers.powerUp.pc = 0x00 := rfl
      rw [hm, hzero]
      dsimp only
      decide
    refine ⟨_, hends, ?_, ?_, ?_⟩
    · rw [hstdout]
      rfl
    · refine List.mem_append_right _ (List.mem_append_right _ ?_)
      rw [htold]
      exact List.mem_cons_self
    · refine List.mem_append_right _ (List.mem_append_right _ ?_)
      rw [htold]
      exact List.mem_cons_of_mem _ (List.mem_singleton_self _)

end Nes.Run
