/-
  Lengths: how many bytes an instruction has, and where PC goes.

  Three parts of the processor each have to know how long an instruction is: finding the operand
  reads the bytes behind the opcode and moves PC past them, the table says how many they are, and
  the tracer reads and prints the whole instruction.  Were they to differ, the instructions behind
  would be read out of step.

  1. **Operands**: on any bus, finding the operand reads as many bytes behind the opcode as the
     table says, then the pointer to which they lead, and no more; the operand is made of these
     bytes alone (`Mode.alwaysMakes_resolve`).
  2. **Operations**: what an operation does on the wires, on any bus, and where it leaves PC
     (`Operation.alwaysMakes_action?`).
  3. **Instructions**: so PC goes behind the instruction, or where the instruction says
     (`Instruction.nextPc`).
  4. **Trace lines**: the bytes can be read off the line again (`columnBytes?`), and are those of
     the whole instruction.
  5. **Together** (`instruction_length`): and where reading changes nothing, the bytes on the line
     are the bytes that the step reads.
-/
import Nes.Proofs.Bus.Heard
import Nes.Proofs.Bus.Making
import Nes.Proofs.Cpu.Executing
import Nes.Proofs.Cpu.Wires
import Nes.Text.Numeral

namespace Nes.Cpu

/-- The word that some bytes begin with, the low one first. -/
def firstWord (bytes : List UInt8) : UInt16 := word (bytes.getD 0 0) (bytes.getD 1 0)

/-! ## Operands -/

namespace Mode

section

variable (r : Registers) (bytes pointer : List UInt8)

/-- The cells of the pointer to which the bytes behind the opcode lead: the second byte of a pointer
    lies in the page of the first. -/
def pointerAt : Mode → List UInt16
  | .indirect =>
    [firstWord bytes, word (lowByte (firstWord bytes) + 1) (highByte (firstWord bytes))]
  | .preIndexedIndirect =>
    [(bytes.headD 0 + r.x).toUInt16, (bytes.headD 0 + r.x + 1).toUInt16]
  | .postIndexedIndirect => [(bytes.headD 0).toUInt16, (bytes.headD 0 + 1).toUInt16]
  | _ => []

/-- The operand that is made of the bytes behind the opcode and of the pointer. -/
def made : Mode → Operand
  | .implied => .implied
  | .accumulator => .accumulator
  | .immediate => .immediate (bytes.headD 0)
  | .relative => .relative (bytes.headD 0).toInt8
  | .zeroPage => .address (bytes.headD 0).toUInt16
  | .zeroPageX => .address (bytes.headD 0 + r.x).toUInt16
  | .zeroPageY => .address (bytes.headD 0 + r.y).toUInt16
  | .absolute => .address (firstWord bytes)
  | .absoluteX => .address (firstWord bytes + r.x.toUInt16)
  | .absoluteY => .address (firstWord bytes + r.y.toUInt16)
  | .indirect | .preIndexedIndirect => .address (firstWord pointer)
  | .postIndexedIndirect => .address (firstWord pointer + r.y.toUInt16)

/-- The accesses by which the operand is found: as many bytes from `addr` on as follow the opcode,
    and the pointer to which they lead. -/
structure Fetches (mode : Mode) (addr : UInt16) (accesses : List Access) : Prop where
  bytes_length : bytes.length = mode.operandLength
  pointer_length : pointer.length = (mode.pointerAt r bytes).length
  accesses_eq : accesses = readsFrom addr bytes ++ readsAt (mode.pointerAt r bytes) pointer

end

/-- **Finding an operand on any bus** reads the bytes behind the opcode and the pointer to which
    they lead, and moves PC behind these bytes. -/
theorem alwaysMakes_resolve (mode : Mode) (r : Registers) :
    (mode.resolve r).AlwaysMakes fun accesses found => ∃ bytes pointer,
      mode.Fetches r bytes pointer r.pc accesses ∧ found.operand = mode.made r bytes pointer ∧
        found.registers = { r with pc := r.pc + UInt16.ofNat mode.operandLength } := by
  have hstay : r.pc + UInt16.ofNat 0 = r.pc := UInt16.add_zero r.pc
  cases mode with
  | implied | accumulator =>
    refine ⟨[], [], ⟨rfl, rfl, rfl⟩, rfl, ?_⟩
    rw [operandLength, hstay]
  | immediate | relative | zeroPage | zeroPageX | zeroPageY =>
    exact fun value => ⟨[value], [], ⟨rfl, rfl, rfl⟩, rfl, rfl⟩
  | absolute | absoluteX | absoluteY =>
    exact fun lo hi => ⟨[lo, hi], [], ⟨rfl, rfl, rfl⟩, rfl, rfl⟩
  | indirect =>
    exact fun lo hi low high => ⟨[lo, hi], [low, high], ⟨rfl, rfl, rfl⟩, rfl, rfl⟩
  | preIndexedIndirect | postIndexedIndirect =>
    exact fun value low high => ⟨[value], [low, high], ⟨rfl, rfl, rfl⟩, rfl, rfl⟩

theorem kind_made (mode : Mode) (r : Registers) (bytes pointer : List UInt8) :
    (mode.made r bytes pointer).kind = mode.kind := by
  cases mode <;> rfl

end Mode

/-! ## Operations -/

/-- PC after an operation; `pulled` are the bytes that it has read. -/
def Operation.pcAfter (operand : Operand) (r : Registers) (pulled : List UInt8) :
    Operation → UInt16
  | .jump | .callSubroutine => operand.address?.getD r.pc
  | .returnFromSubroutine => firstWord pulled + 1
  | .returnFromInterrupt => firstWord pulled.tail
  | .branch condition wanted =>
    if r.status.get condition.flag = wanted then r.pc + signExtend (operand.distance?.getD 0)
    else r.pc
  | _ => r.pc

namespace Operand

variable {operand : Operand} {r : Registers} {action : Registers → Traffic Registers}

theorem alwaysMakes_using? {f : UInt8 → Registers → Registers} (h : operand.using? f = some action)
    (hpc : ∀ v, (f v r).pc = r.pc) :
    (action r).AlwaysMakes fun accesses last =>
      accesses.map Access.wire = operand.cells.map .read ∧ last.pc = r.pc := by
  obtain ⟨value, hvalue, rfl⟩ := Option.map_eq_some_iff.mp h
  cases operand with
  | accumulator => cases hvalue; exact ⟨rfl, hpc r.a⟩
  | immediate v => cases hvalue; exact ⟨rfl, hpc v⟩
  | address addr => cases hvalue; exact fun v => ⟨rfl, hpc v⟩
  | implied | relative _ => cases hvalue

theorem alwaysMakes_place? {place : UInt8 → Registers → Traffic Registers} (v : UInt8)
    (h : operand.place? = some place) :
    (place v r).AlwaysMakes fun accesses last =>
      accesses.map Access.wire = operand.cells.map .write ∧ last.pc = r.pc := by
  cases operand with
  | accumulator => cases h; exact ⟨rfl, rfl⟩
  | address addr => cases h; exact ⟨rfl, rfl⟩
  | implied | immediate _ | relative _ => cases h

/-- What is changed in its place is read once and then stored once. -/
theorem alwaysMakes_modify? {f : UInt8 → Registers → UInt8}
    {flags : UInt8 → Registers → Registers} (h : operand.modify? f flags = some action)
    (hpc : ∀ v, (flags v r).pc = r.pc) :
    (action r).AlwaysMakes fun accesses last =>
      accesses.map Access.wire =
          operand.cells.flatMap (fun addr => [.read addr, .write addr]) ∧
        last.pc = r.pc := by
  cases operand with
  | accumulator => cases h; exact ⟨rfl, hpc r.a⟩
  | address addr => cases h; exact fun v => ⟨rfl, hpc v⟩
  | implied | immediate _ | relative _ => cases h

end Operand

/-- **What an operation does on the wires of any bus, and where it leaves PC.** -/
theorem Operation.alwaysMakes_action? {o : Operation} {operand : Operand}
    {action : Registers → Traffic Registers} (h : o.action? operand = some action)
    (r : Registers) :
    (action r).AlwaysMakes fun accesses last =>
      accesses.map Access.wire = o.wires operand r.sp ∧
        last.pc = o.pcAfter operand r (heard accesses) := by
  have htwo : r.sp + 1 + 1 = r.sp + 2 := UInt8.add_assoc r.sp 1 1
  have hthree : r.sp + 1 + 1 + 1 = r.sp + 3 := by
    rw [UInt8.add_assoc, UInt8.add_assoc]
    rfl
  cases o with
  | load target => exact Operand.alwaysMakes_using? h fun v => by cases target <;> rfl
  | logic _ | testBits | add | subtract | compare _ =>
    exact Operand.alwaysMakes_using? h fun v => rfl
  | adjust _ | shift _ => exact Operand.alwaysMakes_modify? h fun v => rfl
  | store source =>
    obtain ⟨place, hplace, rfl⟩ := Option.map_eq_some_iff.mp h
    exact Operand.alwaysMakes_place? (r.get source) hplace
  | pushA | pushStatus =>
    cases h
    exact ⟨congrArg (fun cell => [Wire.write cell]) (stackAddress_eq_stackCell r.sp), rfl⟩
  | pullA | pullStatus =>
    cases h
    exact fun v =>
      ⟨congrArg (fun cell => [Wire.read cell]) (stackAddress_eq_stackCell (r.sp + 1)), rfl⟩
  | jump =>
    obtain ⟨target, htarget, rfl⟩ := Option.map_eq_some_iff.mp h
    exact ⟨rfl, (congrArg (·.getD r.pc) htarget).symm⟩
  | callSubroutine =>
    obtain ⟨target, htarget, rfl⟩ := Option.map_eq_some_iff.mp h
    refine ⟨?_, (congrArg (·.getD r.pc) htarget).symm⟩
    show [Wire.write (stackAddress r.sp), .write (stackAddress (r.sp - 1))] = _
    rw [stackAddress_eq_stackCell, stackAddress_eq_stackCell]
    rfl
  | returnFromSubroutine =>
    cases h
    intro lo hi
    refine ⟨?_, rfl⟩
    show [Wire.read (stackAddress (r.sp + 1)), .read (stackAddress (r.sp + 1 + 1))] = _
    rw [stackAddress_eq_stackCell, stackAddress_eq_stackCell, htwo]
    rfl
  | returnFromInterrupt =>
    cases h
    intro v lo hi
    refine ⟨?_, rfl⟩
    show [Wire.read (stackAddress (r.sp + 1)), .read (stackAddress (r.sp + 1 + 1)),
      .read (stackAddress (r.sp + 1 + 1 + 1))] = _
    rw [stackAddress_eq_stackCell, stackAddress_eq_stackCell, stackAddress_eq_stackCell, hthree,
      htwo]
    rfl
  | branch condition wanted =>
    obtain ⟨distance, hdistance, rfl⟩ := Option.map_eq_some_iff.mp h
    refine ⟨rfl, ?_⟩
    rw [pcAfter, hdistance]
    show (if r.status.get condition.flag = wanted then r.takeBranch distance else r).pc = _
    split <;> rfl
  | softwareInterrupt => cases h
  | transfer move => cases h; cases move <;> exact ⟨rfl, rfl⟩
  | count index direction => cases h; cases index <;> exact ⟨rfl, rfl⟩
  | switch _ _ | clearOverflow | idle => cases h; exact ⟨rfl, rfl⟩

/-! ## Instructions -/

/-- The modes in which an operation is used that may lead elsewhere. -/
def Operation.aims : Operation → Mode → Bool
  | .jump, mode => mode = .absolute || mode = .indirect
  | .callSubroutine, mode => mode = .absolute
  | .branch _ _, mode => mode = .relative
  | _, _ => true

namespace Instruction

theorem aims_of_decode? {opcode : UInt8} {i : Instruction} (h : decode? opcode = some i)
    (himplemented : i.isImplemented) : i.operation.aims i.mode := by
  have hall : ∀ e ∈ table, e.2.isImplemented → e.2.operation.aims e.2.mode := by decide +kernel
  exact hall (opcode, i) (mem_table_of_decode? h) himplemented

/-- Behind the bytes that follow the opcode stands the next instruction. -/
theorem behind_eq (i : Instruction) (pc : UInt16) :
    pc + 1 + UInt16.ofNat i.mode.operandLength = pc + UInt16.ofNat i.size := by
  rw [size, UInt16.ofNat_add, UInt16.add_assoc]
  rfl

variable (i : Instruction) (r : Registers) (bytes pointer : List UInt8)

/-- Where PC goes: behind the instruction, if it does not lead elsewhere.  It is told by the bytes
    behind the opcode, those of the pointer, and those that the operation has pulled. -/
def nextPc (pulled : List UInt8) : UInt16 :=
  match i.operation, i.mode with
  | .branch condition wanted, _ =>
    if r.status.get condition.flag = wanted then branchTarget r.pc (bytes.headD 0)
    else r.pc + UInt16.ofNat i.size
  | .jump, .indirect => firstWord pointer
  | .jump, _ | .callSubroutine, _ => firstWord bytes
  | .returnFromSubroutine, _ => firstWord pulled + 1
  | .returnFromInterrupt, _ => firstWord pulled.tail
  | _, _ => r.pc + UInt16.ofNat i.size

/-- Once the operand is found, the operation does its part on the wires, the step succeeds, and PC
    goes where it should. -/
structure Finishes (acted : List Access) (stepped : Stepped) : Prop where
  acted_wires : acted.map Access.wire = i.operation.wires (i.mode.made r bytes pointer) r.sp
  succeeds : ∃ cycles, stepped.outcome = .ok cycles
  pc_eq : stepped.registers.pc = i.nextPc r bytes pointer (heard acted)

variable {i r bytes pointer}

/-- What an operation makes of PC, begun behind the instruction, is where PC should go. -/
theorem pcAfter_eq_nextPc (haims : i.operation.aims i.mode) (r ready : Registers)
    (hpc : ready.pc = r.pc + UInt16.ofNat i.size) (hstatus : ready.status = r.status)
    (bytes pointer pulled : List UInt8) :
    i.operation.pcAfter (i.mode.made r bytes pointer) ready pulled =
      i.nextPc r bytes pointer pulled := by
  obtain ⟨operation, mode⟩ := i
  cases operation with
  | jump =>
    cases mode with
    | absolute | indirect => rfl
    | _ => exact nomatch haims
  | callSubroutine =>
    cases mode with
    | absolute => rfl
    | _ => exact nomatch haims
  | branch condition wanted =>
    cases mode with
    | relative =>
      show (if ready.status.get condition.flag = wanted then _ else _) =
        if r.status.get condition.flag = wanted then _ else _
      rw [hstatus, hpc]
      rfl
    | _ => exact nomatch haims
  | returnFromSubroutine | returnFromInterrupt => rfl
  | _ => exact hpc

/-- **What an instruction does on the wires of any bus, and where it leaves PC.** -/
theorem alwaysMakes_execute (haccepts : i.operation.accepts i.mode.kind)
    (haims : i.operation.aims i.mode) (r : Registers) :
    (i.execute r).AlwaysMakes fun accesses stepped => ∃ bytes pointer fetched acted,
      accesses = fetched ++ acted ∧ i.mode.Fetches r bytes pointer (r.pc + 1) fetched ∧
        i.Finishes r bytes pointer acted stepped := by
  rw [execute, Traffic.alwaysMakes_bind]
  refine (i.mode.alwaysMakes_resolve _).mono ?_
  rintro fetched ⟨operand, crossed, found⟩ ⟨bytes, pointer, hfetches, hoperand, hfound⟩
  dsimp only at hoperand hfound ⊢
  obtain ⟨action, haction⟩ := Operation.exists_action? haccepts (i.mode.kind_made r bytes pointer)
  obtain rfl : operand = i.mode.made r bytes pointer := hoperand
  rw [haction]
  obtain ⟨spent, hready⟩ := Registers.exists_paid hfound (crossed && i.pagePenalty)
  rw [i.behind_eq r.pc] at hready
  let ready : Registers := { r with pc := r.pc + UInt16.ofNat i.size, stepCycles := spent }
  dsimp only
  rw [hready]
  refine Traffic.alwaysMakes_bind.mpr ((Operation.alwaysMakes_action? haction ready).mono ?_)
  rintro acted last ⟨hwires, hpc⟩
  refine ⟨bytes, pointer, fetched, acted, ?_, ?_, hwires, ⟨_, rfl⟩, ?_⟩
  · rw [List.append_nil]
  · exact ⟨hfetches.bytes_length, hfetches.pointer_length, hfetches.accesses_eq⟩
  · exact hpc.trans (pcAfter_eq_nextPc haims r ready rfl rfl bytes pointer (heard acted))

end Instruction

/-! ## Trace lines -/

open Nes.Text (hexByte hexByteDigits hexDigit hexWord padRight digitValue?)

/-- The byte that two hexadecimal digits stand for. -/
def byteOf? (high low : Char) : Option UInt8 :=
  match digitValue? 16 high, digitValue? 16 low with
  | some h, some l => some (UInt8.ofNat (16 * h + l))
  | _, _ => none

/-- The bytes that are written with two digits each, blanks apart. -/
def bytesOf? : List Char → Option (List UInt8)
  | [] => some []
  | ' ' :: rest => bytesOf? rest
  | high :: low :: rest =>
    match byteOf? high low, bytesOf? rest with
    | some byte, some bytes => some (byte :: bytes)
    | _, _ => none
  | [_] => none

/-- The bytes in their column of a trace line: eight characters, between two blanks behind the
    address and two blanks before the next column. -/
def columnBytes? (line : String) : Option (List UInt8) :=
  let behindAddress := line.toList.drop 6
  if (behindAddress.drop 8).take 2 = [' ', ' '] then bytesOf? (behindAddress.take 8) else none

theorem digitValue?_hexDigit : ∀ n : Fin 16, digitValue? 16 (hexDigit n) = some n.val := by
  decide

theorem hexDigit_ne_blank : ∀ n : Fin 16, hexDigit n ≠ ' ' := by decide

/-- The two digits of a byte stand for it. -/
theorem bytesOf?_hexByteDigits (byte : UInt8) (rest : List Char) :
    bytesOf? (hexByteDigits byte ++ rest) = (bytesOf? rest).map (byte :: ·) := by
  have hbyte := byte.toNat_lt
  have hdigits : byteOf? (hexDigit ⟨byte.toNat / 16, by omega⟩)
      (hexDigit ⟨byte.toNat % 16, by omega⟩) = some byte := by
    rw [byteOf?, digitValue?_hexDigit, digitValue?_hexDigit]
    have hvalue : 16 * (byte.toNat / 16) + byte.toNat % 16 = byte.toNat := Nat.div_add_mod _ _
    dsimp only
    rw [hvalue, UInt8.ofNat_toNat]
  show bytesOf? (hexDigit _ :: hexDigit _ :: rest) = _
  rw [bytesOf?, hdigits]
  · cases bytesOf? rest <;> rfl
  · exact fun hblank => absurd hblank (hexDigit_ne_blank _)

theorem bytesOf?_blanks (count : Nat) : bytesOf? (List.replicate count ' ') = some [] := by
  induction count with
  | zero => rfl
  | succ count ih => exact ih

theorem bytesText_cons_cons (first second : UInt8) (rest : List UInt8) :
    bytesText (first :: second :: rest) = hexByte first ++ " " ++ bytesText (second :: rest) :=
  String.intercalate_cons_cons

/-- What is written is read again, blanks apart. -/
theorem bytesOf?_bytesText (bytes : List UInt8) (blanks : Nat) :
    bytesOf? ((bytesText bytes).toList ++ List.replicate blanks ' ') = some bytes := by
  induction bytes with
  | nil => exact bytesOf?_blanks blanks
  | cons first rest ih =>
    cases rest with
    | nil =>
      show bytesOf? ((hexByte first).toList ++ _) = _
      rw [Text.toList_hexByte, bytesOf?_hexByteDigits, bytesOf?_blanks]
      rfl
    | cons second rest =>
      rw [bytesText_cons_cons, String.toList_append, String.toList_append, Text.toList_hexByte,
        List.append_assoc, List.append_assoc, bytesOf?_hexByteDigits]
      show (bytesOf? ((bytesText (second :: rest)).toList ++ _)).map _ = _
      rw [ih]
      rfl

theorem length_hexByte (byte : UInt8) : (hexByte byte).length = 2 := by
  rw [← String.length_toList, Text.toList_hexByte, Text.length_hexByteDigits]

theorem length_bytesText (bytes : List UInt8) :
    (bytesText bytes).length = 3 * bytes.length - 1 := by
  induction bytes with
  | nil => rfl
  | cons first rest ih =>
    cases rest with
    | nil => exact length_hexByte first
    | cons second rest =>
      have hblank : " ".length = 1 := rfl
      rw [bytesText_cons_cons, String.length_append, String.length_append, ih, length_hexByte,
        hblank]
      simp only [List.length_cons]
      omega

/-- **The bytes of a trace line** can be read off it, if they fit in their column. -/
theorem columnBytes?_traceText (r : Registers) {bytes : List UInt8} (hlength : bytes.length ≤ 3) :
    columnBytes? (r.traceText bytes) = some bytes := by
  have hfits : (bytesText bytes).length ≤ 8 := by
    rw [length_bytesText]
    omega
  have hcolumn : (padRight 8 (bytesText bytes)).toList.length = 8 := by
    rw [String.length_toList, Text.length_padRight]
    omega
  have hbefore : ((hexWord r.pc).toList ++ "  ".toList).length = 6 := by
    rw [Text.toList_hexWord]
    rfl
  obtain ⟨rest, hline⟩ : ∃ rest, (r.traceText bytes).toList = (hexWord r.pc).toList ++
      ("  ".toList ++ ((padRight 8 (bytesText bytes)).toList ++ ("  ".toList ++ rest))) := by
    unfold Registers.traceText
    simp only [String.toList_append, List.append_assoc]
    exact ⟨_, rfl⟩
  have hblanks : (("  ".toList ++ rest).take 2) = [' ', ' '] := rfl
  rw [columnBytes?, hline, ← List.append_assoc, List.drop_left' hbefore,
    List.drop_left' hcolumn, List.take_left' hcolumn, if_pos hblanks, padRight,
    String.toList_append, String.toList_ofList]
  exact bytesOf?_bytesText bytes _

theorem lengthAt_le (opcode : UInt8) : lengthAt opcode ≤ 3 := by
  unfold lengthAt
  split
  · decide
  · rename_i i _
    rw [Instruction.size]
    cases i.mode <;> decide

namespace Registers

/-- The accesses from which the tracer has the bytes of the instruction at PC, the opcode once more
    than the others. -/
def TracedBy (r : Registers) (accesses : List Access) (bytes : List UInt8) : Prop :=
  ∃ opcode, accesses = .read r.pc opcode :: readsFrom r.pc bytes ∧ bytes.length = lengthAt opcode

/-- **A trace line on any bus** shows the bytes that have been read from PC on, as many as the first
    byte that was read says. -/
theorem alwaysMakes_traceLine (r : Registers) :
    r.traceLine.AlwaysMakes fun accesses line =>
      ∃ bytes, r.TracedBy accesses bytes ∧ columnBytes? line = some bytes := by
  rw [traceLine, Traffic.alwaysMakes_bind]
  intro opcode
  refine Traffic.alwaysMakes_bind.mpr
    ((Traffic.alwaysMakes_readBlock r.pc (lengthAt opcode)).mono ?_)
  rintro accesses bytes ⟨rfl, hlength⟩
  have hfits : bytes.length ≤ 3 := hlength ▸ lengthAt_le opcode
  refine ⟨bytes, ⟨opcode, ?_, hlength⟩, columnBytes?_traceText r hfits⟩
  show .read r.pc opcode :: (readsFrom r.pc bytes ++ []) = _
  rw [List.append_nil]

/-- A step makes the accesses of the trace line just if it is traced. -/
theorem alwaysMakes_trace (r : Registers) (tracing : Bool) :
    (r.trace tracing).AlwaysMakes fun accesses _ =>
      if tracing then ∃ bytes, r.TracedBy accesses bytes else accesses = [] := by
  cases tracing with
  | false => exact rfl
  | true =>
    refine Traffic.alwaysMakes_bind.mpr (r.alwaysMakes_traceLine.mono ?_)
    rintro accesses line ⟨bytes, htraced, -⟩
    show ∃ bytes, r.TracedBy (accesses ++ []) bytes
    rw [List.append_nil]
    exact ⟨bytes, htraced⟩

/-- **A step on any bus** at an implemented opcode. -/
theorem alwaysMakes_step (r : Registers) (tracing : Bool) :
    (r.step tracing).AlwaysMakes fun accesses stepped => ∃ opcode rest,
      accesses = .read r.pc opcode :: rest ∧
        ∀ i, Instruction.decode? opcode = some i → i.isImplemented →
          ∃ traced bytes pointer fetched acted, rest = traced ++ (fetched ++ acted) ∧
            (if tracing then ∃ bytes, r.TracedBy traced bytes else traced = []) ∧
            i.mode.Fetches r bytes pointer (r.pc + 1) fetched ∧
            i.Finishes r bytes pointer acted stepped := by
  rw [step, Traffic.alwaysMakes_bind]
  intro opcode
  dsimp only [Traffic.AlwaysMakes]
  cases hdecode : Instruction.decode? opcode with
  | none =>
    refine ⟨opcode, _, rfl, fun i hi => ?_⟩
    rw [hdecode] at hi
    exact nomatch hi
  | some i =>
    dsimp only
    cases himplemented : i.isImplemented with
    | false =>
      refine ⟨opcode, _, rfl, fun j hj hj' => ?_⟩
      obtain rfl : i = j := Option.some.inj (hdecode.symm.trans hj)
      rw [himplemented] at hj'
      exact nomatch hj'
    | true =>
      have hexecute := i.alwaysMakes_execute (Instruction.accepts_of_decode? hdecode himplemented)
        (Instruction.aims_of_decode? hdecode himplemented) r
      rw [if_pos rfl]
      refine Traffic.alwaysMakes_bind.mpr ((r.alwaysMakes_trace tracing).mono ?_)
      intro traced _ htraced
      refine hexecute.mono ?_
      rintro accesses stepped ⟨bytes, pointer, fetched, acted, rfl, hfetches, hfinishes⟩
      refine ⟨opcode, traced ++ (fetched ++ acted), rfl, fun j hj _ => ?_⟩
      obtain rfl : i = j := Option.some.inj (hdecode.symm.trans hj)
      exact ⟨traced, bytes, pointer, fetched, acted, rfl, htraced, hfetches, hfinishes⟩

end Registers

/-! ## Together -/

theorem lengthAt_of_decode? {opcode : UInt8} {i : Instruction}
    (h : Instruction.decode? opcode = some i) : lengthAt opcode = i.size := by
  rw [lengthAt, h]

/-- **The length of an instruction is the same in the table, on the wires and in the trace line, and
    PC moves by it.**  At an implemented opcode, on any bus:

    * its size is one more than the bytes that its mode says follow the opcode;
    * finding the operand reads as many bytes behind the opcode, and then only the pointer;
    * the trace line shows as many bytes as its size, and has read them from PC on;
    * a step reads the opcode, makes the accesses of the trace line if it is traced, finds the
      operand, and leaves the rest to the operation; it succeeds, and PC goes where `nextPc` says.

    Where reading changes nothing, the bytes of the line are those that the step behind it reads,
    and those that stand from PC on; and whatever the step reads, stood there before. -/
theorem instruction_length {β : Type} [Bus β] (bus : β) (r : Registers) (tracing : Bool)
    {i : Instruction} (hdecode : Instruction.decode? (Bus.peek bus r.pc) = some i)
    (himplemented : i.isImplemented) :
    let found := (i.mode.resolve (r.advance 1)).perform bus
    let line := r.traceLine.perform bus
    let done := (r.step tracing).perform bus
    i.size = 1 + i.mode.operandLength ∧
      (∃ bytes pointer, i.mode.Fetches r bytes pointer (r.pc + 1) found.accesses ∧
        found.answer.registers.pc = r.pc + UInt16.ofNat i.size) ∧
      ∃ printed traced bytes pointer fetched acted,
        (line.accesses = .read r.pc (Bus.peek bus r.pc) :: readsFrom r.pc printed ∧
          printed.length = i.size ∧ columnBytes? line.answer = some printed) ∧
        done.accesses = .read r.pc (Bus.peek bus r.pc) :: (traced ++ (fetched ++ acted)) ∧
        (if tracing then ∃ bytes, r.TracedBy traced bytes else traced = []) ∧
        i.mode.Fetches r bytes pointer (r.pc + 1) fetched ∧
        i.Finishes r bytes pointer acted done.answer ∧
        (PassiveBus β → line.bus = bus ∧ printed = Bus.peek bus r.pc :: bytes ∧
          printed = (cellsFrom r.pc i.size).map (Bus.peek bus) ∧
          ∀ cell value, .read cell value ∈ done.accesses → value = Bus.peek bus cell) := by
  intro found line done
  refine ⟨rfl, ?_, ?_⟩
  · obtain ⟨bytes, pointer, hfetches, -, hfound⟩ :=
      (i.mode.alwaysMakes_resolve (r.advance 1)).perform bus
    refine ⟨bytes, pointer, ?_, ?_⟩
    · exact ⟨hfetches.bytes_length, hfetches.pointer_length, hfetches.accesses_eq⟩
    · exact (congrArg Registers.pc hfound).trans (i.behind_eq r.pc)
  · obtain ⟨printed, ⟨opcode, hline, hlength⟩, hcolumn⟩ := r.alwaysMakes_traceLine.perform bus
    obtain ⟨opcode', rest, hdone, hstep⟩ := (r.alwaysMakes_step tracing).perform bus
    -- the first byte on the wires is the one at PC
    obtain rfl : Bus.peek bus r.pc = opcode := (Access.read.inj (List.cons.inj hline).1).2
    obtain rfl : Bus.peek bus r.pc = opcode' := (Access.read.inj (List.cons.inj hdone).1).2
    obtain ⟨traced, bytes, pointer, fetched, acted, rfl, htraced, hfetches, hfinishes⟩ :=
      hstep i hdecode himplemented
    rw [lengthAt_of_decode? hdecode] at hlength
    refine ⟨printed, traced, bytes, pointer, fetched, acted, ⟨hline, hlength, hcolumn⟩, hdone,
      htraced, hfetches, hfinishes, fun hpassive => ?_⟩
    have hshownLine := r.actsAs_traceLine bus
    have hshownStep := r.actsAs_step bus tracing hdecode himplemented
    have hprinted : printed = (cellsFrom r.pc i.size).map (Bus.peek bus) := by
      refine eq_map_of_readsFrom hlength fun cell value hmem => hshownLine.read_shows ?_
      exact hline ▸ List.mem_cons_of_mem _ hmem
    have hbytes : bytes = (cellsFrom (r.pc + 1) i.mode.operandLength).map (Bus.peek bus) := by
      refine eq_map_of_readsFrom hfetches.bytes_length fun cell value hmem =>
        hshownStep.read_shows ?_
      have hfetched : .read cell value ∈ fetched :=
        hfetches.accesses_eq ▸ List.mem_append_left _ hmem
      rw [hdone]
      refine List.mem_cons_of_mem _ (List.mem_append_right traced ?_)
      exact List.mem_append_left acted hfetched
    refine ⟨hshownLine.bus_eq, ?_, hprinted, fun cell value hmem => hshownStep.read_shows hmem⟩
    rw [hprinted, hbytes, Instruction.size, Nat.add_comm, cellsFrom_succ, List.map_cons]

/-- `JMP ($02FF)` with its opcode in the last cell of memory: its other two bytes are the first of
    memory, and the second byte of the pointer is in $0200. -/
theorem instruction_length_around_memory :
    let ram : Ram := Traffic.storeAll (.ofBytes ⟨#[]⟩)
      [(0xFFFF, 0x6C), (0x0000, 0xFF), (0x0001, 0x02), (0x02FF, 0x34), (0x0200, 0x12)]
    let r : Registers := { Registers.powerUp with pc := 0xFFFF }
    columnBytes? (r.traceLine.perform ram).answer = some [0x6C, 0xFF, 0x02] ∧
      ((r.step false).perform ram).answer.registers.pc = 0x1234 := by
  intro ram r
  have hcells : ram.get 0xFFFF = 0x6C ∧ ram.get 0x0000 = 0xFF ∧ ram.get 0x0001 = 0x02 ∧
      ram.get 0x02FF = 0x34 ∧ ram.get 0x0200 = 0x12 := by
    simp only [ram, Traffic.storeAll, List.foldl_cons, List.foldl_nil, Bus.write, Ram.get_set]
    decide
  -- what else the memory holds does not matter
  clear_value ram
  obtain ⟨h0, h1, h2, h3, h4⟩ := hcells
  let i : Instruction := ⟨.jump, .indirect⟩
  have hdecode : Instruction.decode? (Bus.peek ram r.pc) = some i := by
    rw [Bus.peek_ram, show ram.get r.pc = 0x6C from h0]
    decide
  obtain ⟨-, -, printed, traced, bytes, pointer, fetched, acted, ⟨-, -, hcolumn⟩, hdone, -,
    hfetches, hfinishes, hpassive⟩ := instruction_length ram r false hdecode rfl
  obtain ⟨-, hbytes, hprinted, hshown⟩ := hpassive inferInstance
  have hrow : cellsFrom r.pc i.size = [0xFFFF, 0x0000, 0x0001] := by decide
  rw [hrow, Bus.peek_ram, List.map_cons, List.map_cons, List.map_cons, List.map_nil, h0, h1, h2]
    at hprinted
  obtain rfl : bytes = [0xFF, 0x02] := (List.cons.inj (hbytes.symm.trans hprinted)).2
  have hpointer : pointer = (i.mode.pointerAt r [0xFF, 0x02]).map (Bus.peek ram) := by
    refine eq_map_of_readsAt hfetches.pointer_length fun cell value hmem => hshown cell value ?_
    rw [hdone, hfetches.accesses_eq]
    refine List.mem_cons_of_mem _ (List.mem_append_right traced (List.mem_append_left acted ?_))
    exact List.mem_append_right _ hmem
  have hword : i.mode.pointerAt r [0xFF, 0x02] = [0x02FF, 0x0200] := by decide
  rw [hword, Bus.peek_ram, List.map_cons, List.map_cons, List.map_nil, h3, h4] at hpointer
  constructor
  · rw [hcolumn, hprinted]
  · rw [hfinishes.pc_eq, hpointer]
    show firstWord [0x34, 0x12] = 0x1234
    decide

end Nes.Cpu
