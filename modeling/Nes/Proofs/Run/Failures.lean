/-
  Failures: what is written when a step fails, and what can be told by it.

  A step that fails ends the program with two lines: why it failed, and the registers before it.

  1. **Texts**: spelled out, with the painted tag and all, the lines are those of `failureTold`,
     for the opcode and the registers at the failure (`failureLines_eq`).
  2. **Telling**: the first line begins differently for $00 and for an unknown opcode, and the
     fields in either line end where they must; so the lines tell the opcode and all registers
     except the cycles of the step before (`failureTold_inj`).
-/
import Nes.Proofs.Cpu.Failing
import Nes.Proofs.Cpu.Flags
import Nes.Proofs.Text.Fields
import Nes.Run.Session

namespace Nes.Run

open Nes.Cpu (Flag Machine Registers Status StepError failureAt)
open Nes.Text (decimal decimal_inj getElem?_append_of_eq hexByte hexByte_append_inj hexWord
  hexWord_inj)

/-! ## Texts -/

/-- The letters of the flags in a status byte, the most significant bit first.  A letter is
    upper-case if its bit is set; bit 5 has none. -/
def flagLetters (p : UInt8) : String :=
  let letter := fun (i : Nat) (set clear : Char) => if p.toNat.testBit i then set else clear
  String.ofList [letter 7 'N' 'n', letter 6 'V' 'v', '-', letter 4 'B' 'b', letter 3 'D' 'd',
    letter 2 'I' 'i', letter 1 'Z' 'z', letter 0 'C' 'c']

/-- What is said of a step that fails at an opcode. -/
def failureText (opcode : UInt8) (pc : UInt16) : String :=
  if opcode = 0x00 then "unimplemented opcode $00 (BRK) at $" ++ hexWord pc
  else "unknown opcode $" ++ hexByte opcode ++ " at $" ++ hexWord pc

/-- What is said of the registers. -/
def registersText (r : Registers) : String :=
  "A:" ++ hexByte r.a ++ " X:" ++ hexByte r.x ++ " Y:" ++ hexByte r.y ++
    " P:" ++ hexByte r.status.byte ++ " [" ++ flagLetters r.status.byte ++ "] SP:" ++
    hexByte r.sp ++ " CYC:" ++ decimal r.cycles.toNat

/-- The lines that are written of a step that fails at an opcode. -/
def failureTold (opcode : UInt8) (r : Registers) : List Line :=
  [.err ("\x1b[1;31mERROR\x1b[0m " ++ failureText opcode r.pc),
    .err ("\x1b[1;31mERROR\x1b[0m " ++ registersText r)]

/-- A failure that ends the run is written behind a red tag. -/
theorem fatal_eq (message : String) :
    Line.fatal message = .err ("\x1b[1;31mERROR\x1b[0m " ++ message) := by
  have htag : tag .error ++ " " = "\x1b[1;31mERROR\x1b[0m " := by decide
  rw [Line.fatal, htag]

theorem describe_eq (p : Status) : p.describe = flagLetters p.byte := by
  have hletter : ∀ f : Flag, p.describeFlag f =
      if p.byte.toNat.testBit f.bit then f.letter else f.letter.toLower := by
    intro f
    rw [Status.describeFlag, Status.get_eq_bit, Status.bit]
  have hdash : p.describeFlag .unused = '-' := by
    rw [hletter]
    exact ite_self _
  show String.ofList [p.describeFlag .negative, p.describeFlag .overflow, p.describeFlag .unused,
    p.describeFlag .breakCommand, p.describeFlag .decimal, p.describeFlag .interruptDisable,
    p.describeFlag .zero, p.describeFlag .carry] = flagLetters p.byte
  rw [hdash]
  simp only [hletter]
  rfl

theorem message_failureAt (opcode : UInt8) (pc : UInt16) :
    (failureAt opcode pc).message = failureText opcode pc := by
  rw [failureAt, failureText]
  split
  · rfl
  · rfl

theorem summary_eq (r : Registers) : r.summary = registersText r := by
  unfold Registers.summary registersText
  rw [describe_eq]

/-- **The lines of a failure**, spelled out. -/
theorem failureLines_eq (opcode : UInt8) (r : Registers) :
    Session.failureLines (failureAt opcode r.pc) r = failureTold opcode r := by
  rw [Session.failureLines, fatal_eq, fatal_eq, message_failureAt, summary_eq]
  rfl

/-- What a step fails with is the failure at the opcode where PC stands. -/
theorem eq_failureAt {m : Machine MemoryMap} {tracing : Bool} {failure : StepError}
    (h : (m.step tracing).answer.outcome = .error failure) :
    failure = failureAt (m.bus.read m.registers.pc) m.registers.pc := by
  have hnot := (Cpu.step_fails_iff m.bus m.registers tracing).mp ⟨failure, h⟩
  rw [Machine.step, Cpu.perform_step_of_not_mem m.bus m.registers tracing hnot] at h
  exact (Except.error.inj h).symm

/-! ## Telling -/

/-- The text of a failure tells the opcode and PC. -/
theorem failureText_inj {opcode opcode' : UInt8} {pc pc' : UInt16}
    (h : failureText opcode pc = failureText opcode' pc') : opcode = opcode' ∧ pc = pc' := by
  have hapart : ∀ x y : String,
      "unimplemented opcode $00 (BRK) at $" ++ x ≠ "unknown opcode $" ++ y := by
    intro x y hxy
    -- they differ in the third character
    have hknown : ("unimplemented opcode $00 (BRK) at $" ++ x).toList[2]? = some 'i' :=
      getElem?_append_of_eq rfl x
    rw [hxy, getElem?_append_of_eq (rfl : "unknown opcode $".toList[2]? = some 'k') y] at hknown
    exact nomatch hknown
  rw [failureText, failureText] at h
  split at h
  · rename_i hzero
    split at h
    · rename_i hzero'
      exact ⟨hzero.trans hzero'.symm, hexWord_inj ((String.append_right_inj _).mp h)⟩
    · simp only [String.append_assoc] at h
      exact absurd h (hapart _ _)
  · split at h
    · simp only [String.append_assoc] at h
      exact absurd h.symm (hapart _ _)
    · simp only [String.append_assoc] at h
      obtain ⟨hopcode, hrest⟩ := hexByte_append_inj ((String.append_right_inj _).mp h)
      exact ⟨hopcode, hexWord_inj ((String.append_right_inj _).mp hrest)⟩

/-- The text of the registers tells all that it shows. -/
theorem registersText_inj {r r' : Registers} (h : registersText r = registersText r') :
    r.a = r'.a ∧ r.x = r'.x ∧ r.y = r'.y ∧ r.status = r'.status ∧ r.sp = r'.sp ∧
      r.cycles = r'.cycles := by
  unfold registersText at h
  simp only [String.append_assoc] at h
  obtain ⟨ha, h⟩ := hexByte_append_inj ((String.append_right_inj "A:").mp h)
  obtain ⟨hx, h⟩ := hexByte_append_inj ((String.append_right_inj " X:").mp h)
  obtain ⟨hy, h⟩ := hexByte_append_inj ((String.append_right_inj " Y:").mp h)
  obtain ⟨hp, h⟩ := hexByte_append_inj ((String.append_right_inj " P:").mp h)
  rw [hp] at h
  have h := (String.append_right_inj (flagLetters r'.status.byte)).mp
    ((String.append_right_inj " [").mp h)
  obtain ⟨hsp, h⟩ := hexByte_append_inj ((String.append_right_inj "] SP:").mp h)
  have hcycles := decimal_inj ((String.append_right_inj " CYC:").mp h)
  exact ⟨ha, hx, hy, congrArg Status.mk hp, hsp, UInt64.toNat_inj.mp hcycles⟩

/-- **The lines of a failure tell the opcode and the registers.** -/
theorem failureTold_inj {opcode opcode' : UInt8} {r r' : Registers}
    (h : failureTold opcode r = failureTold opcode' r') :
    opcode = opcode' ∧ r = { r' with stepCycles := r.stepCycles } := by
  obtain ⟨hfailure, hregisters⟩ := List.cons.inj h
  have hfailure := (String.append_right_inj _).mp (Line.err.inj hfailure)
  have hregisters := (String.append_right_inj _).mp (Line.err.inj (List.cons.inj hregisters).1)
  obtain ⟨hopcode, hpc⟩ := failureText_inj hfailure
  obtain ⟨ha, hx, hy, hstatus, hsp, hcycles⟩ := registersText_inj hregisters
  refine ⟨hopcode, ?_⟩
  cases r
  cases r'
  simp_all

end Nes.Run
