/-
  Listening: which records a run leaves, and what the trace adds to them.

  At every verbosity but the highest a listener only decides what is kept.  The highest makes the
  run itself do more: before each instruction its bytes are read once more, over a bus that has
  something to report about some addresses, even errors.  That this repeats no error rests on where
  an instruction can begin.

  1. **Levels**: what the console has to report is an error or of use in debugging, so `debug` keeps
     all that a run leaves which is not traced (`keep_debug_journal`).
  2. **Addresses**: from $4018 to $7FFF zeros are seen, and a zero is not executed.  So an
     instruction begins below $4018 or from $8000 on, and its three bytes at most reach no further
     into the unmapped part than $4019 (`readNote_traceCells`).
  3. **Steps**: a step that is traced leaves what is reported about its bytes, the trace line, and
     then what the same step leaves if it is not (`records_step_eq`).
  4. **Journals**: by induction on the number of steps, the journal of a traced run is that of the
     quiet one with the preface of each step put in (`journal_eq`), so it has the same errors
     (`error_journal`) and nothing else is added (`trace_adds_two_addresses`).
-/
import Nes.Proofs.Cartridge.Window
import Nes.Proofs.Cpu.Lengths
import Nes.Proofs.Cpu.Reporting

namespace Nes

/-! ## Levels -/

namespace MemoryMap

/-- Which reads there is something to report about, by the number of the address. -/
theorem readNote_eq (addr : UInt16) :
    readNote addr =
      if addr.toNat < 0x4018 then none
      else if addr.toNat < 0x4020 then some (undefinedRead addr)
      else Cartridge.readNote addr := by
  unfold readNote Region.of
  by_cases hram : addr.toNat < 0x2000
  · simp only [if_pos hram, if_pos (show addr.toNat < 0x4018 by omega)]
  by_cases hpicture : addr.toNat < 0x4000
  · simp only [if_neg hram, if_pos hpicture, if_pos (show addr.toNat < 0x4018 by omega)]
  by_cases hio : addr.toNat < 0x4018
  · simp only [if_neg hram, if_neg hpicture, dif_pos hio, if_pos hio]
  by_cases hoff : addr.toNat < 0x4020
  · simp only [if_neg hram, if_neg hpicture, dif_neg hio, if_neg hio, if_pos hoff]
  · simp only [if_neg hram, if_neg hpicture, dif_neg hio, if_neg hio, if_neg hoff]

/-- What is noted about a read can be kept without a trace. -/
theorem admits_readNote {addr : UInt16} {note : Record} (h : readNote addr = some note) :
    (Verbosity.upTo .debug).admits note.level := by
  rw [readNote_eq] at h
  split at h
  · cases h
  split at h
  · cases h
    rfl
  · unfold Cartridge.readNote Nrom.readNote at h
    split at h
    · cases h
    · cases h
      rfl

/-- What is noted about a write can be kept without a trace. -/
theorem admits_writeNote {addr : UInt16} {value : UInt8} {note : Record}
    (h : writeNote addr value = some note) : (Verbosity.upTo .debug).admits note.level := by
  unfold writeNote at h
  split at h
  · cases h
    rfl
  · cases h
    rfl
  · cases h

end MemoryMap

/-- All that a silent computation leaves can be kept without a trace. -/
theorem Traffic.NeverReports.admits_debug {α : Type} {t : Traffic α} (h : t.NeverReports)
    (map : MemoryMap) :
    ∀ record ∈ (t.perform map).records, (Verbosity.upTo .debug).admits record.level :=
  h.of_notes (fun _ _ => MemoryMap.admits_readNote) (fun _ _ _ => MemoryMap.admits_writeNote) map

namespace Cpu

open Nes.Traffic (Performed NeverReports)

/-! ## Addresses -/

/-- Where the bytes of an instruction may lie whose first byte is not unmapped: a read of one of
    them leaves no note, unless it is one of two addresses behind the last cell. -/
theorem readNote_of_near {pc : UInt16} {k : Nat} {note : Record} (hk : k < 3)
    (hpc : pc.toNat < 0x4018 ∨ 0x8000 ≤ pc.toNat)
    (h : MemoryMap.readNote (pc + UInt16.ofNat k) = some note) :
    note = MemoryMap.undefinedRead 0x4018 ∨ note = MemoryMap.undefinedRead 0x4019 := by
  have hlt := pc.toNat_lt
  have hsum : (pc + UInt16.ofNat k).toNat = (pc.toNat + k) % 65536 := by
    rw [UInt16.toNat_add, UInt16.toNat_ofNat_of_lt' (by omega : k < 65536)]
  rw [MemoryMap.readNote_eq] at h
  split at h
  · cases h
  rename_i hcells
  split at h
  · rename_i hoff
    -- behind the cells lie only the first two addresses, for an instruction that begins on one
    have haddr : pc + UInt16.ofNat k = 0x4018 ∨ pc + UInt16.ofNat k = 0x4019 := by
      rw [← UInt16.toNat_inj, ← UInt16.toNat_inj]
      show _ = 0x4018 ∨ _ = 0x4019
      omega
    rcases haddr with haddr | haddr <;> rw [haddr] at h <;> cases h
    · exact .inl rfl
    · exact .inr rfl
  · rename_i hoff
    have hwindow : Nrom.window ≤ pc + UInt16.ofNat k := by
      rw [UInt16.le_iff_toNat_le]
      show 0x8000 ≤ _
      omega
    rw [Cartridge.readNote, Nrom.readNote, if_pos hwindow] at h
    cases h

/-- **What is noted about the bytes of an instruction** whose first byte is not unmapped. -/
theorem Registers.readNote_traceCells {r : Registers} {mem : UInt16 → UInt8} {cell : UInt16}
    {note : Record} (hpc : r.pc.toNat < 0x4018 ∨ 0x8000 ≤ r.pc.toNat)
    (hcell : cell ∈ r.traceCells true mem) (h : MemoryMap.readNote cell = some note) :
    note = MemoryMap.undefinedRead 0x4018 ∨ note = MemoryMap.undefinedRead 0x4019 := by
  have hnear : ∃ k, k < 3 ∧ cell = r.pc + UInt16.ofNat k := by
    rcases List.mem_cons.mp hcell with hfirst | hblock
    · exact ⟨0, by decide, by rw [hfirst]; exact (UInt16.add_zero r.pc).symm⟩
    · obtain ⟨k, hk, hcell⟩ := List.mem_map.mp hblock
      have hlength := lengthAt_le (mem r.pc)
      have hk := List.mem_range.mp hk
      exact ⟨k, by omega, hcell.symm⟩
  obtain ⟨k, hk, rfl⟩ := hnear
  exact readNote_of_near hk hpc h

namespace Machine

/-! ## Steps -/

section

variable (m : Machine MemoryMap)

/-- What is noted about the bytes of the instruction at PC when its trace line is made, if it is
    executed at all. -/
def lineNotes : List Record :=
  match (m.step false).answer.outcome with
  | .ok _ => (m.registers.traceLine.perform m.bus).records
  | .error _ => []

/-- What a traced step leaves before it leaves what any other does: the notes about the bytes of the
    instruction and the trace line, if the instruction is executed. -/
def preface : List Record :=
  match (m.step false).answer.outcome with
  | .ok _ => m.lineNotes ++ [traceRecord m.traceText]
  | .error _ => []

/-- An instruction that is executed does not begin where nothing is mapped. -/
theorem pc_of_ok {cycles : UInt8} (h : (m.step false).answer.outcome = .ok cycles) :
    m.registers.pc.toNat < 0x4018 ∨ 0x8000 ≤ m.registers.pc.toNat := by
  refine Decidable.byContradiction fun hunmapped => ?_
  have hfails := m.step_of_upper false (by omega) (by omega)
  rw [hfails] at h
  cases h

/-- **Which notes a trace line leaves.** -/
theorem mem_lineNotes {note : Record} (h : note ∈ m.lineNotes) :
    note = MemoryMap.undefinedRead 0x4018 ∨ note = MemoryMap.undefinedRead 0x4019 := by
  unfold lineNotes at h
  split at h
  · rename_i cycles hok
    rw [Registers.perform_traceLine] at h
    obtain ⟨cell, hcell, hread⟩ := List.mem_flatMap.mp h
    exact Registers.readNote_traceCells (m.pc_of_ok hok) hcell (Option.mem_toList.mp hread)
  · cases h

/-- No record of a preface is an error. -/
theorem error_not_mem_preface {record : Record} (h : record ∈ m.preface) :
    record.level ≠ .error := by
  unfold preface at h
  split at h
  · rcases List.mem_append.mp h with hnote | hline
    · rcases m.mem_lineNotes hnote with rfl | rfl <;> exact nofun
    · rw [List.mem_singleton.mp hline]
      exact nofun
  · cases h

/-- **A traced step leaves its preface, and then what the quiet step leaves.** -/
theorem records_step_eq (tracing : Bool) :
    (m.step tracing).records = (if tracing then m.preface else []) ++ (m.step false).records := by
  cases tracing with
  | false => rfl
  | true =>
    rw [if_pos rfl, preface]
    cases houtcome : (m.step false).answer.outcome with
    | error failure =>
      -- a step that fails has only read its opcode, traced or not
      have hnot := (step_fails_iff m.bus m.registers false).mp ⟨failure, houtcome⟩
      rw [step, step, perform_step_of_not_mem m.bus m.registers true hnot,
        perform_step_of_not_mem m.bus m.registers false hnot]
      rfl
    | ok cycles =>
      obtain ⟨i, hdecode, -, hrecords⟩ := m.exists_records_step false houtcome
      have hopcode : Bus.readNote m.bus m.registers.pc = none := by
        show MemoryMap.readNote m.registers.pc = none
        rw [MemoryMap.readNote_eq]
        rcases m.pc_of_ok houtcome with hlow | hhigh
        · exact if_pos hlow
        · have hwindow : Nrom.window ≤ m.registers.pc := UInt16.le_iff_toNat_le.mpr hhigh
          rw [if_neg (by omega), if_neg (by omega), Cartridge.readNote, Nrom.readNote,
            if_pos hwindow]
      have htrace : ((m.registers.trace true).perform m.bus).records =
          m.lineNotes ++ [traceRecord m.traceText] := by
        show ((m.registers.traceLine >>= _).perform m.bus).records = _
        rw [Traffic.perform_bind, lineNotes, houtcome]
        rfl
      have hquiet : ((m.registers.trace false).perform m.bus).records = [] := rfl
      rw [hrecords, hrecords, hopcode, htrace, hquiet]
      rfl

/-- All that a quiet step leaves can be kept without a trace. -/
theorem admits_debug_step {record : Record} (h : record ∈ (m.step false).records) :
    (Verbosity.upTo .debug).admits record.level := by
  have hread : (Traffic.readByte m.registers.pc).NeverReports := fun _ => trivial
  have hsilent : (m.registers.step false).NeverReports := by
    refine hread.bind fun opcode => ?_
    cases Instruction.decode? opcode with
    | none => exact trivial
    | some i =>
      dsimp only
      cases i.isImplemented with
      | true => exact i.neverReports_execute m.registers
      | false => exact trivial
  exact hsilent.admits_debug m.bus record h

end

/-! ## Journals -/

/-- The records that a number of steps leave, whatever comes of each. -/
def journal {β : Type} [Bus β] (tracing : Bool) : Nat → Machine β → List Record
  | 0, _ => []
  | count + 1, m => (m.step tracing).records ++ journal tracing count (m.next tracing)

/-- The machine after a number of steps, whatever came of each. -/
def stage {β : Type} [Bus β] (m : Machine β) (count : Nat) : Machine β :=
  m.after (List.replicate count false)

/-- A run that stops where a step fails leaves the records of the steps that it has tried. -/
theorem exists_run_records {β : Type} [Bus β] [PassiveBus β] (m : Machine β) (count : Nat) :
    ∃ tried, tried ≤ count ∧
      ∀ tracing, (run tracing count m).records = journal tracing tried m := by
  induction count generalizing m with
  | zero => exact ⟨0, Nat.le_refl 0, fun _ => rfl⟩
  | succ count ih =>
    cases houtcome : (m.step false).answer.outcome with
    | error failure =>
      refine ⟨1, by omega, fun tracing => ?_⟩
      rw [run_of_error ((m.outcome_eq tracing false).trans houtcome)]
      exact (List.append_nil _).symm
    | ok cycles =>
      obtain ⟨tried, hle, hrun⟩ := ih (m.next false)
      refine ⟨tried + 1, by omega, fun tracing => ?_⟩
      rw [run_of_ok ((m.outcome_eq tracing false).trans houtcome), journal,
        m.next_eq tracing false, hrun]

variable (m : Machine MemoryMap) (count : Nat)

/-- **The journal of any run, step by step**: that of the quiet run, with the preface of each step
    before its records if the run is traced. -/
theorem journal_eq (tracing : Bool) :
    journal tracing count m = (List.range count).flatMap fun i =>
      (if tracing then (m.stage i).preface else []) ++ ((m.stage i).step false).records := by
  induction count generalizing m with
  | zero => rfl
  | succ count ih =>
    rw [journal, m.next_eq tracing false, ih, m.records_step_eq, List.range_succ_eq_map,
      List.flatMap_cons, List.flatMap_map]
    rfl

/-- `debug` keeps all of a quiet run. -/
theorem keep_debug_journal :
    (Verbosity.upTo .debug).keep (journal false count m) = journal false count m := by
  refine List.filter_eq_self.mpr ?_
  induction count generalizing m with
  | zero => exact fun record hmem => nomatch hmem
  | succ count ih =>
    intro record hmem
    rcases List.mem_append.mp hmem with hfirst | hrest
    · exact m.admits_debug_step hfirst
    · exact ih (m.next false) record hrest

/-- The quiet run's journal is in the traced run's. -/
theorem journal_sublist : (journal false count m).Sublist (journal true count m) := by
  induction count generalizing m with
  | zero => exact List.Sublist.refl []
  | succ count ih =>
    rw [journal, journal, m.next_eq true false, m.records_step_eq true]
    exact (List.sublist_append_right _ _).append (ih (m.next false))

/-- The same errors are in both. -/
theorem error_journal :
    (journal true count m).filter (·.level = .error) =
      (journal false count m).filter (·.level = .error) := by
  induction count generalizing m with
  | zero => rfl
  | succ count ih =>
    have hpreface : m.preface.filter (·.level = .error) = [] := by
      refine List.filter_eq_nil_iff.mpr fun record hmem => ?_
      simpa using m.error_not_mem_preface hmem
    rw [journal, journal, m.next_eq true false, m.records_step_eq true, if_pos rfl,
      List.append_assoc, List.filter_append, hpreface, List.nil_append, List.filter_append, ih,
      ← List.filter_append]

/-! ## What the trace adds -/

/-- `trace` keeps everything. -/
theorem keep_trace (records : List Record) : (Verbosity.upTo .trace).keep records = records := by
  refine List.filter_eq_self.mpr fun record _ => ?_
  cases record.level <;> rfl

/-- `error` keeps the errors. -/
theorem keep_error (records : List Record) :
    (Verbosity.upTo .error).keep records = records.filter (·.level = .error) := by
  refine List.filter_congr fun record _ => ?_
  cases record.level <;> rfl

/-- **Which records a run leaves does not depend on the trace, but for two addresses.**  Let any
    number of steps be taken on the console and listened to at each verbosity; a run that stops
    where a step fails is one of these.

    * Up to `debug` a verbosity keeps just those of the records kept at `debug` that it admits.
    * The errors kept at `trace` are those kept at `error`, in their order.
    * What is kept at `debug` is kept at `trace` too, in its order.  Besides there is one trace line
      for each step that succeeds, before the records of that step, and before the line there may be
      notes that undefined addresses were read, which are $4018 or $4019. -/
theorem trace_adds_two_addresses (m : Machine MemoryMap) :
    (∀ count, ∃ tried, tried ≤ count ∧
      ∀ tracing, (run tracing count m).records = journal tracing tried m) ∧
    ∀ count,
      let kept := fun v : Verbosity => v.keep (journal v.tracing count m)
      let quiet := fun i => ((m.stage i).step false).records
      (∀ v : Verbosity, v.rank ≤ Level.debug.rank →
        kept v = (kept (.upTo .debug)).filter fun record => v.admits record.level) ∧
      (kept (.upTo .trace)).filter (·.level = .error) = kept (.upTo .error) ∧
      (kept (.upTo .debug)).Sublist (kept (.upTo .trace)) ∧
      ∃ undefined : Nat → List Record,
        (∀ i, ∀ note ∈ undefined i,
          note = MemoryMap.undefinedRead 0x4018 ∨ note = MemoryMap.undefinedRead 0x4019) ∧
        kept (.upTo .debug) = (List.range count).flatMap quiet ∧
        kept (.upTo .trace) = (List.range count).flatMap fun i =>
          match ((m.stage i).step false).answer.outcome with
          | .ok _ => undefined i ++ traceRecord (m.stage i).traceText :: quiet i
          | .error _ => quiet i := by
  refine ⟨m.exists_run_records, fun count => ?_⟩
  intro kept quiet
  have hdebug : kept (.upTo .debug) = journal false count m := m.keep_debug_journal count
  have htrace : kept (.upTo .trace) = journal true count m := keep_trace _
  refine ⟨?_, ?_, ?_, fun i => (m.stage i).lineNotes, fun i note => (m.stage i).mem_lineNotes,
    ?_, ?_⟩
  · intro v hv
    have hquiet : v.tracing = false := by
      refine Bool.eq_false_iff.mpr fun htracing => ?_
      rw [Verbosity.tracing_iff.mp htracing] at hv
      exact absurd hv (by decide)
    show v.keep (journal v.tracing count m) = v.keep (kept (.upTo .debug))
    rw [hquiet, hdebug]
  · rw [htrace, m.error_journal count]
    exact (keep_error _).symm
  · rw [hdebug, htrace]
    exact m.journal_sublist count
  · rw [hdebug, m.journal_eq count false]
    rfl
  · rw [htrace, m.journal_eq count true]
    congr 1
    funext i
    rw [if_pos rfl, preface]
    cases ((m.stage i).step false).answer.outcome with
    | ok cycles => exact List.append_assoc _ _ _
    | error failure => rfl

/-- `LDA ($00),Y` whose second byte is the undefined $4018, with a pointer to $5000 where nothing is
    mapped. -/
def unmappedPointer : Machine MemoryMap :=
  let header : Header := ⟨1, 1, 1, .horizontal, false, false, false, false, false, 0, .ntsc⟩
  let board : Nrom := ⟨⟨#[0xEA]⟩, .horizontal, by decide⟩
  ⟨{ Registers.powerUp with pc := 0x4017 },
    ((MemoryMap.ofCartridge ⟨header, ⟨#[]⟩, board⟩).write 0x4017 0xB1).write 0x0001 0x50⟩

/-- What is reported about the read through the pointer. -/
def unmappedRead : Record := ⟨.error, .nrom, "NROM: no PRG mapped at $" ++ Text.hexWord 0x5000⟩

theorem step_unmappedPointer :
    (unmappedPointer.step false).records = [MemoryMap.undefinedRead 0x4018, unmappedRead] ∧
      (unmappedPointer.step false).answer.outcome = .ok 5 := ⟨rfl, rfl⟩

/-- At `warn` its one error is kept, and at `trace` the same and no other, though $4018 is read
    again for the trace line. -/
theorem trace_adds_two_addresses_unmapped_pointer :
    let kept := fun v : Verbosity => v.keep (journal v.tracing 1 unmappedPointer)
    kept (.upTo .warn) = [unmappedRead] ∧
      (kept (.upTo .trace)).filter (·.level = .error) = [unmappedRead] ∧
      ∃ undefined, kept (.upTo .trace) = undefined ++
        [traceRecord unmappedPointer.traceText, MemoryMap.undefinedRead 0x4018, unmappedRead] := by
  intro kept
  obtain ⟨hrecords, hok⟩ := step_unmappedPointer
  obtain ⟨hlevels, herrors, -, undefined, -, hdebug, htrace⟩ :=
    unmappedPointer.trace_adds_two_addresses.2 1
  have hrange : List.range 1 = [0] := rfl
  have hstage : unmappedPointer.stage 0 = unmappedPointer := rfl
  simp only [hrange, List.flatMap_singleton, hstage, hrecords, hok] at hdebug htrace
  have hkept : ∀ v : Verbosity, v.rank ≤ Level.debug.rank →
      kept v = v.keep [MemoryMap.undefinedRead 0x4018, unmappedRead] := fun v hv =>
    (hlevels v hv).trans (congrArg v.keep hdebug)
  exact ⟨hkept (.upTo .warn) (by decide), herrors.trans (hkept (.upTo .error) (by decide)),
    undefined 0, htrace⟩

end Machine

end Cpu

end Nes
