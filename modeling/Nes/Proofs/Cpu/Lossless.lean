/-
  Lossless: what is printed for an instruction tells its bytes.

  A text consists of three letters and, behind a blank, an operand.  The letters tell the operation.
  Of the operand the digits tell the bytes and all that is no digit tells the mode, but for branches
  and jumps: both print an address of four digits, and only the letters say whether it was written
  as a distance.  No two opcodes have both operation and mode in common.

  1. **Digits**: the form of a text is the text with 0 in place of every digit (`blankOut`).
  2. **Operands**: the form of an operand's text depends on the mode, its digits on the bytes that
     the mode takes (`Mode.map_operandText`, `Mode.filter_operandText`); so the text tells the mode,
     a branch being known as one, and these bytes (`Mode.operandText_inj`).
  3. **Instructions**: the text tells the operation, so also whether it is a branch, and the opcode
     (`Instruction.text_inj`, `Instruction.opcode?_of_decode?`).
  4. **Encodings**: bytes are printed like the encoding that they begin, with zeros for what is cut
     off (`disassemble_eq_iff`).
-/
import Nes.Proofs.Cpu.Branches
import Nes.Proofs.Cpu.Lengths

namespace Nes.Cpu

open Nes.Text (hexByte hexByteDigits hexByteDigits_inj hexDigit hexWord hexWord_inj digitValue?)

/-! ## Digits -/

/-- Whether a character is a hexadecimal digit. -/
def isHexDigit (c : Char) : Bool := (digitValue? 16 c).isSome

/-- A character, but 0 in place of a digit. -/
def blankOut (c : Char) : Char := if isHexDigit c then '0' else c

theorem isHexDigit_of_mem {byte : UInt8} {c : Char} (h : c ∈ hexByteDigits byte) :
    isHexDigit c = true := by
  have hdigit : ∀ n : Fin 16, isHexDigit (hexDigit n) = true := fun n => by
    rw [isHexDigit, digitValue?_hexDigit]
    rfl
  rcases List.mem_cons.mp h with rfl | h
  · exact hdigit _
  · rw [List.mem_singleton.mp h]
    exact hdigit _

theorem filter_hexByteDigits (byte : UInt8) :
    (hexByteDigits byte).filter isHexDigit = hexByteDigits byte :=
  List.filter_eq_self.mpr fun _ hmem => isHexDigit_of_mem hmem

theorem map_hexByteDigits (byte : UInt8) : (hexByteDigits byte).map blankOut = ['0', '0'] := by
  have hmap : (hexByteDigits byte).map blankOut = (hexByteDigits byte).map fun _ => '0' :=
    List.map_congr_left fun c hmem => if_pos (isHexDigit_of_mem hmem)
  rw [hmap]
  rfl

/-! ## Operands -/

theorem branchTarget_inj {pc : UInt16} {a b : UInt8} (h : branchTarget pc a = branchTarget pc b) :
    a = b := by
  have ha := toNat_branchTarget pc a
  have hb := toNat_branchTarget pc b
  have hlt := a.toNat_lt
  have hlt' := b.toNat_lt
  rw [h, hb, signed_eq, signed_eq] at ha
  apply UInt8.toNat_inj.mp
  split at ha <;> split at ha <;> omega

theorem word_inj {lo hi lo' hi' : UInt8} (h : word lo hi = word lo' hi') : lo = lo' ∧ hi = hi' := by
  constructor
  · rw [← lowByte_word lo hi, h, lowByte_word]
  · rw [← highByte_word lo hi, h, highByte_word]

namespace Mode

variable (pc : UInt16) (lo hi : UInt8)

/-- What is left of an operand's text when its digits are blanked out. -/
def form : Mode → List Char
  | .implied => []
  | .accumulator => ['0']
  | .immediate => ['#', '$', '0', '0']
  | .zeroPage => ['$', '0', '0']
  | .zeroPageX => ['$', '0', '0', ',', 'X']
  | .zeroPageY => ['$', '0', '0', ',', 'Y']
  | .relative | .absolute => ['$', '0', '0', '0', '0']
  | .absoluteX => ['$', '0', '0', '0', '0', ',', 'X']
  | .absoluteY => ['$', '0', '0', '0', '0', ',', 'Y']
  | .indirect => ['(', '$', '0', '0', '0', '0', ')']
  | .preIndexedIndirect => ['(', '$', '0', '0', ',', 'X', ')']
  | .postIndexedIndirect => ['(', '$', '0', '0', ')', ',', 'Y']

/-- The digits of an operand's text; the name of the accumulator is one of them. -/
def digits : Mode → List Char
  | .implied => []
  | .accumulator => ['A']
  | .immediate | .zeroPage | .zeroPageX | .zeroPageY
  | .preIndexedIndirect | .postIndexedIndirect => hexByteDigits lo
  | .relative => (hexWord (branchTarget pc lo)).toList
  | .absolute | .absoluteX | .absoluteY | .indirect => (hexWord (word lo hi)).toList

theorem map_operandText (mode : Mode) :
    (mode.operandText pc lo hi).toList.map blankOut = mode.form := by
  cases mode <;>
    simp only [operandText, String.toList_append, List.map_append, Text.toList_hexByte,
      Text.toList_hexWord, map_hexByteDigits] <;>
    decide

theorem filter_operandText (mode : Mode) :
    (mode.operandText pc lo hi).toList.filter isHexDigit = mode.digits pc lo hi := by
  cases mode <;>
    simp only [operandText, digits, String.toList_append, List.filter_append, Text.toList_hexByte,
      Text.toList_hexWord, filter_hexByteDigits] <;>
    rfl

/-- The form tells the mode, apart from the one mode of branches. -/
theorem form_inj {m n : Mode} (h : m.form = n.form) (hrelative : m = .relative ↔ n = .relative) :
    m = n := by
  revert h hrelative
  cases m <;> cases n <;> decide

/-- The digits tell the bytes. -/
theorem digits_inj {mode : Mode} (pc : UInt16) {lo hi lo' hi' : UInt8}
    (h : mode.digits pc lo hi = mode.digits pc lo' hi') :
    [lo, hi].take mode.operandLength = [lo', hi'].take mode.operandLength := by
  cases mode with
  | implied | accumulator => rfl
  | immediate | zeroPage | zeroPageX | zeroPageY | preIndexedIndirect | postIndexedIndirect =>
    rw [hexByteDigits_inj h]
    rfl
  | relative =>
    rw [branchTarget_inj (hexWord_inj (String.toList_inj.mp h))]
    rfl
  | absolute | absoluteX | absoluteY | indirect =>
    obtain ⟨rfl, rfl⟩ := word_inj (hexWord_inj (String.toList_inj.mp h))
    rfl

/-- **An operand's text tells the mode and the bytes that it takes**, once it is known whether it is
    that of a branch. -/
theorem operandText_inj {m n : Mode} {pc : UInt16} {lo hi lo' hi' : UInt8}
    (h : m.operandText pc lo hi = n.operandText pc lo' hi')
    (hrelative : m = .relative ↔ n = .relative) :
    m = n ∧ [lo, hi].take m.operandLength = [lo', hi'].take m.operandLength := by
  have hform : m.form = n.form := by
    rw [← map_operandText pc lo hi m, h, map_operandText]
  obtain rfl := form_inj hform hrelative
  refine ⟨rfl, digits_inj pc ?_⟩
  rw [← filter_operandText, h, filter_operandText]

/-- The text depends on no other bytes. -/
theorem operandText_congr {mode : Mode} (pc : UInt16) {lo hi lo' hi' : UInt8}
    (h : [lo, hi].take mode.operandLength = [lo', hi'].take mode.operandLength) :
    mode.operandText pc lo hi = mode.operandText pc lo' hi' := by
  cases mode with
  | implied | accumulator => rfl
  | immediate | zeroPage | zeroPageX | zeroPageY | relative | preIndexedIndirect
  | postIndexedIndirect =>
    obtain rfl : lo = lo' := (List.cons.inj h).1
    rfl
  | absolute | absoluteX | absoluteY | indirect =>
    obtain ⟨rfl, htail⟩ := List.cons.inj h
    obtain rfl : hi = hi' := (List.cons.inj htail).1
    rfl

end Mode

/-! ## Instructions -/

theorem Operation.length_mnemonic (operation : Operation) :
    operation.mnemonic.toList.length = 3 := by
  have hall : ∀ o ∈ all, o.mnemonic.toList.length = 3 := by decide
  exact hall operation (mem_all operation)

/-- Whether an operation is a branch. -/
def Operation.isBranch : Operation → Bool
  | .branch _ _ => true
  | _ => false

namespace Instruction

variable (i : Instruction) (pc : UInt16) (lo hi : UInt8)

/-- The letters of an instruction's text. -/
theorem take_text : (i.text pc lo hi).toList.take 3 = i.operation.mnemonic.toList := by
  have hlength := i.operation.length_mnemonic
  unfold text
  split
  · exact List.take_of_length_le (Nat.le_of_eq hlength)
  · rw [String.toList_append, String.toList_append, List.append_assoc, List.take_left' hlength]

/-- The operand in an instruction's text. -/
theorem drop_text : (i.text pc lo hi).toList.drop 4 = (i.mode.operandText pc lo hi).toList := by
  have hlength := i.operation.length_mnemonic
  unfold text
  split
  · -- without an operand the text ends before the blank
    rename_i himplied
    rw [himplied, List.drop_of_length_le (by omega)]
    rfl
  · rw [String.toList_append]
    refine List.drop_left' ?_
    rw [String.toList_append, List.length_append, hlength]
    rfl

/-- Only branches find their operand as branches do. -/
theorem relative_iff_of_decode? {opcode : UInt8} {i : Instruction} (h : decode? opcode = some i) :
    i.mode = .relative ↔ i.operation.isBranch := by
  have hall : ∀ e ∈ table, e.2.mode = .relative ↔ e.2.operation.isBranch := by decide +kernel
  exact hall (opcode, i) (mem_table_of_decode? h)

/-- **The text tells the instruction and the bytes that it takes.** -/
theorem text_inj {a b : UInt8} {i j : Instruction} (ha : decode? a = some i)
    (hb : decode? b = some j) {pc : UInt16} {lo hi lo' hi' : UInt8}
    (h : i.text pc lo hi = j.text pc lo' hi') :
    i = j ∧ [lo, hi].take i.mode.operandLength = [lo', hi'].take i.mode.operandLength := by
  have hletters : i.operation.mnemonic.toList = j.operation.mnemonic.toList := by
    rw [← take_text, h, take_text]
  have hoperation := Operation.mnemonic_inj (String.toList_inj.mp hletters)
  have hoperand : i.mode.operandText pc lo hi = j.mode.operandText pc lo' hi' := by
    apply String.toList_inj.mp
    rw [← drop_text, h, drop_text]
  -- a branch and a jump print their operands alike, but by now they are told apart
  have hrelative : i.mode = .relative ↔ j.mode = .relative := by
    rw [relative_iff_of_decode? ha, relative_iff_of_decode? hb, hoperation]
  obtain ⟨hmode, hbytes⟩ := Mode.operandText_inj hoperand hrelative
  rcases i with ⟨operation, mode⟩
  rcases j with ⟨operation', mode'⟩
  obtain rfl : operation = operation' := hoperation
  obtain rfl : mode = mode' := hmode
  exact ⟨rfl, hbytes⟩

/-- The opcode of an instruction, if it has one. -/
def opcode? : Option UInt8 := (table.find? fun e => e.2 == i).map Prod.fst

/-- No instruction has two opcodes. -/
theorem opcode?_of_decode? {opcode : UInt8} {i : Instruction} (h : decode? opcode = some i) :
    i.opcode? = some opcode := by
  have hall : ∀ e ∈ table, e.2.opcode? = some e.1 := by decide +kernel
  exact hall (opcode, i) (mem_table_of_decode? h)

end Instruction

/-! ## Encodings -/

/-- Whole encodings: an opcode with as many bytes behind it as it takes. -/
def IsEncoding : List UInt8 → Prop
  | [] => False
  | opcode :: operand => (opcode :: operand).length = lengthAt opcode

/-- The encoding with which some bytes begin; what is cut off reads as zeros. -/
def completed (bytes : List UInt8) : List UInt8 :=
  let size := lengthAt (bytes.headD 0)
  (bytes.rightpad size 0).take size

theorem lengthAt_pos (opcode : UInt8) : 0 < lengthAt opcode := by
  unfold lengthAt
  split
  · decide
  · rw [Instruction.size]
    omega

theorem lengthAt_of_unknown {opcode : UInt8} (h : Instruction.decode? opcode = none) :
    lengthAt opcode = 1 := by
  rw [lengthAt, h]

/-- Behind the opcode of an instruction stand the bytes that its mode takes. -/
theorem operandLength_of_decode? {opcode : UInt8} {i : Instruction}
    (h : Instruction.decode? opcode = some i) : lengthAt opcode - 1 = i.mode.operandLength := by
  rw [lengthAt_of_decode? h, Instruction.size, Nat.add_sub_cancel_left]

theorem completed_cons (opcode : UInt8) (operand : List UInt8) :
    completed (opcode :: operand) =
      opcode :: [operand.getD 0 0, operand.getD 1 0].take (lengthAt opcode - 1) := by
  have hpos := lengthAt_pos opcode
  have hle := lengthAt_le opcode
  rw [completed, List.headD_cons]
  generalize lengthAt opcode = size at hpos hle
  obtain rfl | rfl | rfl : size = 1 ∨ size = 2 ∨ size = 3 := by omega
  all_goals rcases operand with _ | ⟨lo, _ | ⟨hi, rest⟩⟩ <;> simp [List.rightpad]

/-- What is completed is an encoding. -/
theorem isEncoding_completed {bytes : List UInt8} (h : bytes ≠ []) :
    IsEncoding (completed bytes) := by
  obtain ⟨opcode, operand, rfl⟩ := List.exists_cons_of_ne_nil h
  have hpos := lengthAt_pos opcode
  have hle := lengthAt_le opcode
  rw [completed_cons]
  show (opcode :: List.take _ _).length = lengthAt opcode
  rw [List.length_cons, List.length_take]
  simp only [List.length_cons, List.length_nil]
  omega

/-- Bytes that begin with an encoding are completed to it. -/
theorem completed_append {bytes : List UInt8} (h : IsEncoding bytes) (more : List UInt8) :
    completed (bytes ++ more) = bytes := by
  cases bytes with
  | nil => exact h.elim
  | cons opcode operand =>
    have hlength : (opcode :: operand).length = lengthAt opcode := h
    rw [completed, List.cons_append, List.headD_cons, ← hlength, ← List.cons_append, List.rightpad,
      List.append_assoc, List.take_left]

theorem disassemble_of_unknown {opcode : UInt8} (h : Instruction.decode? opcode = none)
    (pc : UInt16) (operand : List UInt8) :
    disassemble pc (opcode :: operand) = ".db $" ++ hexByte opcode := by
  rw [disassemble, h]

/-- No instruction is printed like data. -/
theorem Instruction.text_ne_data (i : Instruction) (pc : UInt16) (lo hi opcode : UInt8) :
    i.text pc lo hi ≠ ".db $" ++ hexByte opcode := by
  intro h
  have hall : ∀ o ∈ Operation.all, o.mnemonic.toList ≠ ['.', 'd', 'b'] := by decide
  have hletters := i.take_text pc lo hi
  rw [h, String.toList_append] at hletters
  exact hall i.operation (Operation.mem_all _) hletters.symm

/-- What is printed tells the encoding with which the bytes begin. -/
theorem completed_eq_of_disassemble {pc : UInt16} {a b : UInt8} {x y : List UInt8}
    (h : disassemble pc (a :: x) = disassemble pc (b :: y)) :
    completed (a :: x) = completed (b :: y) := by
  cases ha : Instruction.decode? a with
  | none =>
    cases hb : Instruction.decode? b with
    | none =>
      rw [disassemble_of_unknown ha, disassemble_of_unknown hb] at h
      have hdigits := congrArg String.toList h
      rw [String.toList_append, String.toList_append] at hdigits
      obtain rfl := Text.hexByte_inj (String.toList_inj.mp (List.append_cancel_left hdigits))
      rw [completed_cons, completed_cons, lengthAt_of_unknown ha]
      rfl
    | some j =>
      rw [disassemble_of_unknown ha, disassemble_of_decode? hb] at h
      exact absurd h.symm (j.text_ne_data _ _ _ _)
  | some i =>
    cases hb : Instruction.decode? b with
    | none =>
      rw [disassemble_of_decode? ha, disassemble_of_unknown hb] at h
      exact absurd h (i.text_ne_data _ _ _ _)
    | some j =>
      rw [disassemble_of_decode? ha, disassemble_of_decode? hb] at h
      obtain ⟨rfl, hbytes⟩ := Instruction.text_inj ha hb h
      obtain rfl : a = b := by
        have hopcode := Instruction.opcode?_of_decode? ha
        rw [Instruction.opcode?_of_decode? hb] at hopcode
        exact (Option.some.inj hopcode).symm
      rw [completed_cons, completed_cons, operandLength_of_decode? ha, hbytes]

/-- **What is printed depends on the encoding with which the bytes begin, and tells it.** -/
theorem disassemble_eq_iff {pc : UInt16} {bytes other : List UInt8} (h : bytes ≠ [])
    (hother : other ≠ []) :
    disassemble pc bytes = disassemble pc other ↔ completed bytes = completed other := by
  obtain ⟨a, x, rfl⟩ := List.exists_cons_of_ne_nil h
  obtain ⟨b, y, rfl⟩ := List.exists_cons_of_ne_nil hother
  refine ⟨completed_eq_of_disassemble, fun hsame => ?_⟩
  rw [completed_cons, completed_cons] at hsame
  obtain ⟨rfl, hbytes⟩ := List.cons.inj hsame
  cases ha : Instruction.decode? a with
  | none => rw [disassemble_of_unknown ha, disassemble_of_unknown ha]
  | some i =>
    rw [operandLength_of_decode? ha] at hbytes
    rw [disassemble_of_decode? ha, disassemble_of_decode? ha, Instruction.text, Instruction.text,
      Mode.operandText_congr pc hbytes]

/-- **Disassembling loses nothing but what lies behind the instruction.**  At any address:

    * two encodings with the same text are the same;
    * any bytes, if there are any, have the text of the encoding with which they begin, with zeros
      for what is cut off;
    * so the bytes behind an encoding never matter. -/
theorem disassembly_is_lossless (pc : UInt16) :
    (∀ a b, IsEncoding a → IsEncoding b → disassemble pc a = disassemble pc b → a = b) ∧
    (∀ bytes, bytes ≠ [] →
      IsEncoding (completed bytes) ∧ disassemble pc bytes = disassemble pc (completed bytes)) ∧
    (∀ bytes more, IsEncoding bytes → disassemble pc (bytes ++ more) = disassemble pc bytes) := by
  have hne : ∀ {bytes}, IsEncoding bytes → bytes ≠ [] := by
    rintro _ h rfl
    exact h
  have hself : ∀ {bytes}, IsEncoding bytes → completed bytes = bytes := fun {bytes} h => by
    have happend := completed_append h []
    rwa [List.append_nil] at happend
  refine ⟨?_, ?_, ?_⟩
  · intro a b ha hb h
    have hsame := (disassemble_eq_iff (hne ha) (hne hb)).mp h
    rwa [hself ha, hself hb] at hsame
  · intro bytes h
    have hencoding := isEncoding_completed h
    exact ⟨hencoding, (disassemble_eq_iff h (hne hencoding)).mpr (hself hencoding).symm⟩
  · intro bytes more h
    refine (disassemble_eq_iff ?_ (hne h)).mpr ?_
    · exact List.append_ne_nil_of_left_ne_nil (hne h) more
    · rw [completed_append h, hself h]

/-- At $C000 a branch four bytes on and a jump to $C006 print the same address, and loads from $10
    and from $0010 differ in two digits; a branch that is cut off has the distance 0. -/
theorem disassembly_is_lossless_same_address :
    IsEncoding [0xD0, 0x04] ∧ IsEncoding [0x4C, 0x06, 0xC0] ∧
      disassemble 0xC000 [0xD0, 0x04] ≠ disassemble 0xC000 [0x4C, 0x06, 0xC0] ∧
      disassemble 0xC000 [0xA5, 0x10] ≠ disassemble 0xC000 [0xAD, 0x10, 0x00] ∧
      disassemble 0xC000 [0xD0] = disassemble 0xC000 [0xD0, 0x00] ∧
      disassemble 0xC000 [0x02, 0x10] = disassemble 0xC000 [0x02] := by
  obtain ⟨hinj, hcompleted, hmore⟩ := disassembly_is_lossless 0xC000
  have hbranch : IsEncoding [0xD0, 0x04] := rfl
  have hjump : IsEncoding [0x4C, 0x06, 0xC0] := rfl
  refine ⟨hbranch, hjump, fun h => ?_, fun h => ?_, ?_, hmore [0x02] [0x10] rfl⟩
  · exact absurd (hinj _ _ hbranch hjump h) (by decide)
  · exact absurd (hinj [0xA5, 0x10] [0xAD, 0x10, 0x00] rfl rfl h) (by decide)
  · have hzero : completed [0xD0] = [0xD0, 0x00] := by decide
    rw [← hzero]
    exact (hcompleted [0xD0] (List.cons_ne_nil _ _)).2

end Nes.Cpu
