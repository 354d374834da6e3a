/-
  Printing: which lines are written where, and how they are told apart.

  1. **Standard output**: trace lines go there and nothing else does, so of some records there is
     written what is kept of the trace lines among them (`stdout_transcript`).
  2. **Tags**: on standard error a line begins with the tag of a level, and the tags differ early
     enough that a line tells its level whatever comes behind (`tag_inj`).  So what is written at a
     level is written exactly where the verbosity admits it (`admits_of_mem_transcript`).
-/
import Nes.Proofs.Cpu.Reporting
import Nes.Run.Console

namespace Nes.Run

open Nes.Cpu (Machine traceRecord)

/-! ## Standard output -/

/-- What a line writes to standard output. -/
def Line.out? : Line → Option String
  | .out text => some text
  | .err _ => none

/-- The texts that some lines write to standard output, in order. -/
def stdout (lines : List Line) : List String := lines.filterMap Line.out?

@[simp] theorem stdout_append (lines more : List Line) :
    stdout (lines ++ more) = stdout lines ++ stdout more := List.filterMap_append

/-- A failure that ends the run is written to standard error. -/
@[simp] theorem stdout_fatal (message : String) : stdout [.fatal message] = [] := rfl

/-- **Trace lines go to standard output, and nothing else does.** -/
theorem stdout_map_ofRecord (records : List Record) :
    stdout (records.map Line.ofRecord) = (records.filter Record.isTrace).map Record.message := by
  induction records with
  | nil => rfl
  | cons record rest ih =>
    rw [List.map_cons, stdout, List.filterMap_cons, List.filter_cons]
    by_cases htrace : record.source = .trace
    · have hline : (Line.ofRecord record).out? = some record.message := by
        rw [Line.ofRecord, if_pos htrace]
        rfl
      have hyes : record.isTrace = true := decide_eq_true htrace
      rw [hline, if_pos hyes, List.map_cons, ← ih]
      rfl
    · have hline : (Line.ofRecord record).out? = none := by
        rw [Line.ofRecord, if_neg htrace]
        rfl
      have hno : ¬ record.isTrace = true := mt of_decide_eq_true htrace
      rw [hline, if_neg hno, ← ih]
      rfl

/-- Of some records there goes to standard output what is kept of the trace lines. -/
theorem stdout_transcript (verbosity : Verbosity) (records : List Record) :
    stdout (transcript verbosity records) =
      (verbosity.keep (records.filter Record.isTrace)).map Record.message := by
  have hcomm : (verbosity.keep records).filter Record.isTrace =
      verbosity.keep (records.filter Record.isTrace) := by
    rw [Verbosity.keep, Verbosity.keep, List.filter_filter, List.filter_filter]
    exact List.filter_congr fun record _ => Bool.and_comm _ _
  rw [transcript, stdout_map_ofRecord, hcomm]

/-- Where there are no trace lines, nothing goes to standard output. -/
theorem stdout_transcript_of_silent (verbosity : Verbosity) {records : List Record}
    (h : records.filter Record.isTrace = []) : stdout (transcript verbosity records) = [] := by
  rw [stdout_transcript, h]
  rfl

/-- **A run without a failure prints the trace lines of the states that it goes through** at the
    highest verbosity, and nothing at any other. -/
theorem stdout_run (verbosity : Verbosity) (count : Nat) (m : Machine MemoryMap)
    (h : (Machine.run false count m).failure = none) :
    stdout (transcript verbosity (Machine.run verbosity.tracing count m).records) =
      if verbosity = .upTo .trace then
        (List.range count).map fun i => (Machine.run false i m).machine.traceText
      else [] := by
  rw [stdout_transcript, m.isTrace_run verbosity.tracing count h]
  by_cases htrace : verbosity = .upTo .trace
  · subst htrace
    have hkept : ∀ lines : List String,
        (Verbosity.upTo .trace).keep (lines.map traceRecord) = lines.map traceRecord := by
      intro lines
      refine List.filter_eq_self.mpr fun record hrecord => ?_
      obtain ⟨line, -, rfl⟩ := List.mem_map.mp hrecord
      rfl
    have hlines := hkept ((List.range count).map fun i => (Machine.run false i m).machine.traceText)
    rw [List.map_map] at hlines
    have htracing : (Verbosity.upTo .trace).tracing = true := rfl
    rw [if_pos htracing, if_pos rfl]
    refine (congrArg (List.map Record.message) hlines).trans ?_
    rw [List.map_map]
    rfl
  · rw [if_neg (mt Verbosity.tracing_iff.mp htrace), if_neg htrace]
    rfl

/-! ## Tags -/

/-- Four characters are enough to tell the tags apart. -/
theorem take_tag (level : Level) (text : String) :
    (tag level ++ text).toList.take 4 = (tag level).toList.take 4 := by
  have hlength : 4 ≤ (tag level).toList.length := by cases level <;> decide
  rw [String.toList_append, List.take_append_of_le_length hlength]

theorem tag_inj {a b : Level} {x y : String} (h : tag a ++ x = tag b ++ y) : a = b := by
  have htake := congrArg (fun text => text.toList.take 4) h
  simp only [take_tag] at htake
  revert htake
  cases a <;> cases b <;> decide

/-- **A record that is written has been admitted**, since its line tells its level. -/
theorem admits_of_mem_transcript {verbosity : Verbosity} {records : List Record} {record : Record}
    (hsource : record.source ≠ .trace)
    (h : Line.ofRecord record ∈ transcript verbosity records) : verbosity.admits record.level := by
  obtain ⟨other, hother, hline⟩ := List.mem_map.mp h
  obtain ⟨-, hadmits⟩ := List.mem_filter.mp hother
  rw [Line.ofRecord, Line.ofRecord, if_neg hsource] at hline
  by_cases htrace : other.source = .trace
  · rw [if_pos htrace] at hline
    cases hline
  · rw [if_neg htrace] at hline
    have htext := Line.err.inj hline
    simp only [String.append_assoc] at htext
    rwa [tag_inj htext] at hadmits

/-- So of the records reported one is written exactly if it is admitted. -/
theorem mem_transcript_iff (verbosity : Verbosity) {records : List Record} {record : Record}
    (hsource : record.source ≠ .trace) (hmem : record ∈ records) :
    Line.ofRecord record ∈ transcript verbosity records ↔ verbosity.admits record.level :=
  ⟨admits_of_mem_transcript hsource, fun hadmits =>
    List.mem_map.mpr ⟨record, List.mem_filter.mpr ⟨hmem, hadmits⟩, rfl⟩⟩

/-- The verbosities at which information is written. -/
theorem admits_info_iff {verbosity : Verbosity} :
    verbosity.admits .info ↔ verbosity ∈ [.upTo .info, .upTo .debug, .upTo .trace] := by
  rcases verbosity with _ | _ | _ | _ | _ | _ <;> decide

/-- A record that is no error is not written as a failure that ends the run. -/
theorem ofRecord_ne_fatal {record : Record} (h : record.level ≠ .error) (message : String) :
    Line.ofRecord record ≠ .fatal message := by
  intro hline
  by_cases htrace : record.source = .trace
  · rw [Line.ofRecord, if_pos htrace] at hline
    cases hline
  · rw [Line.ofRecord, if_neg htrace] at hline
    have htext := Line.err.inj hline
    simp only [String.append_assoc] at htext
    exact h (tag_inj htext)

end Nes.Run
