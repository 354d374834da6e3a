/-
  Columns: where on a trace line what stands, and that the line tells the state.

  A trace is compared with that of another console column by column.  Columns are filled up to a
  width, but nothing cuts off what is wider, so they stand where they should only if nothing ever
  is.  An instruction has three bytes at most and eleven characters, the lines of a picture are
  numbered below 262 and the dots of a line below 341; so only the cycles vary in width, and they
  come last.

  1. **Fields**: a line is the text of its fields put together, so a field stands behind the widths
     of those before it (`columns_join`).
  2. **Widths**: how wide each field is (`length_disassemble_le`, `length_decimal_le`), so that all
     but the last are as wide as their columns (`widths_fields`).
  3. **Layout**: what stands in which columns (`laidOut_traceText`).
  4. **States**: so a line tells the state (`trace_line_columns`).
-/
import Mathlib.Algebra.Ring.Nat
import Nes.Proofs.Cpu.Lossless
import Nes.Proofs.Text.Fields

namespace Nes.Cpu

open Nes.Text (decimal decimal_inj hexByte hexByte_inj hexWord hexWord_inj length_padLeft
  length_padRight padLeft padRight)

/-! ## Fields -/

/-- The characters of a line in the columns from `first` to `last`, both included. -/
def columns (first last : Nat) (line : String) : String :=
  String.ofList ((line.toList.drop first).take (last + 1 - first))

/-- The characters of a line from a column to the end. -/
def columnsFrom (first : Nat) (line : String) : String := String.ofList (line.toList.drop first)

section

variable {fields : List String} {k first last : Nat} {field : String}

/-- Behind the widths of some fields stand the others. -/
theorem drop_join (hfirst : ((fields.map String.length).take k).sum = first) :
    (String.join fields).toList.drop first = (fields.drop k).flatMap String.toList := by
  have hlength : ((fields.take k).flatMap String.toList).length = first := by
    rw [← hfirst, List.length_flatMap, ← List.map_take]
    rfl
  conv_lhs => rw [String.toList_join, ← List.take_append_drop k fields, List.flatMap_append]
  exact List.drop_left' hlength

/-- **Each field of a line stands behind the widths of those before it.** -/
theorem columns_join (hfield : fields[k]? = some field)
    (hfirst : ((fields.map String.length).take k).sum = first)
    (hlast : ((fields.map String.length).take (k + 1)).sum = last + 1) :
    columns first last (String.join fields) = field := by
  obtain ⟨hk, rfl⟩ := List.getElem?_eq_some_iff.mp hfield
  have hwidth : fields[k].toList.length = last + 1 - first := by
    rw [← hfirst, ← hlast, String.length_toList, List.take_add_one, List.getElem?_map, hfield,
      Option.map_some, Option.toList_some, List.sum_append, Nat.add_sub_cancel_left]
    rfl
  rw [columns, drop_join hfirst, List.drop_eq_getElem_cons hk, List.flatMap_cons,
    List.take_left' hwidth, String.ofList_toList]

theorem columnsFrom_join (hfield : fields.drop k = [field])
    (hfirst : ((fields.map String.length).take k).sum = first) :
    columnsFrom first (String.join fields) = field := by
  rw [columnsFrom, drop_join hfirst, hfield, List.flatMap_cons, List.flatMap_nil, List.append_nil,
    String.ofList_toList]

end

/-! ## Widths -/

theorem Mode.length_operandText_le (mode : Mode) (pc : UInt16) (lo hi : UInt8) :
    (mode.operandText pc lo hi).length ≤ 7 := by
  have hform : (mode.operandText pc lo hi).length = mode.form.length := by
    rw [← mode.map_operandText pc lo hi, List.length_map, String.length_toList]
  rw [hform]
  cases mode <;> decide

/-- What is printed for an instruction is at most eleven characters wide. -/
theorem length_disassemble_le (pc : UInt16) (bytes : List UInt8) :
    (disassemble pc bytes).length ≤ 11 := by
  cases bytes with
  | nil => exact Nat.zero_le _
  | cons opcode operand =>
    cases hdecode : Instruction.decode? opcode with
    | none =>
      rw [disassemble_of_unknown hdecode, String.length_append, length_hexByte]
      decide
    | some i =>
      have hletters := i.operation.length_mnemonic
      have hoperand := i.mode.length_operandText_le pc (operand.getD 0 0) (operand.getD 1 0)
      have hblank : " ".length = 1 := rfl
      rw [String.length_toList] at hletters
      rw [disassemble_of_decode? hdecode, Instruction.text]
      split
      · omega
      · rw [String.length_append, String.length_append]
        omega

theorem length_decimal_le {n : Nat} (h : n < 1000) : (decimal n).length ≤ 3 := by
  rw [decimal, String.length_ofList]
  exact (Nat.length_toDigits_le_iff (by decide) (by decide)).mpr h

theorem length_hexWord (w : UInt16) : (hexWord w).length = 4 := by
  rw [hexWord, String.length_append, length_hexByte, length_hexByte]

/-- As long as the dots can be counted, they are three for each cycle. -/
theorem toNat_dots {cycles : UInt64} (h : cycles.toNat ≤ 2 ^ 64 / 3) :
    (dots cycles).toNat = 3 * cycles.toNat := by
  rw [dots, UInt64.toNat_mul]
  show cycles.toNat * 3 % 2 ^ 64 = _
  omega

theorem toNat_scanline {cycles : UInt64} (h : cycles.toNat ≤ 2 ^ 64 / 3) :
    (scanline cycles).toNat = 3 * cycles.toNat / 341 % 262 := by
  rw [scanline, UInt64.toNat_mod, UInt64.toNat_div, toNat_dots h]
  rfl

theorem toNat_dot {cycles : UInt64} (h : cycles.toNat ≤ 2 ^ 64 / 3) :
    (dot cycles).toNat = 3 * cycles.toNat % 341 := by
  rw [dot, UInt64.toNat_mod, toNat_dots h]
  rfl

namespace Registers

variable (r : Registers) (bytes : List UInt8)

/-- The fields of a trace line, and what stands between them. -/
def fields : List String :=
  [hexWord r.pc, "  ", padRight 8 (bytesText bytes), "  ", padRight 30 (disassemble r.pc bytes),
    "  A:", hexByte r.a, " X:", hexByte r.x, " Y:", hexByte r.y, " P:", hexByte r.status.byte,
    " SP:", hexByte r.sp, " PPU:", padLeft 3 (decimal (scanline r.cycles).toNat), ",",
    padLeft 3 (decimal (dot r.cycles).toNat), " CYC:", decimal r.cycles.toNat]

theorem traceText_eq_join : r.traceText bytes = String.join (r.fields bytes) := by
  have hjoin : ∀ (first : String) (rest : List String),
      String.join (first :: rest) = rest.foldl (· ++ ·) first := by
    intro first rest
    show rest.foldl (· ++ ·) ("" ++ first) = _
    rw [String.empty_append]
  rw [fields, hjoin]
  rfl

/-- The widths of these fields, but of the last. -/
def widths : List Nat := [4, 2, 8, 2, 30, 4, 2, 3, 2, 3, 2, 3, 2, 4, 2, 5, 3, 1, 3, 5]

/-- **No field is ever wider than its columns.** -/
theorem widths_fields (hlength : bytes.length ≤ 3) :
    (r.fields bytes).map String.length = widths ++ [(decimal r.cycles.toNat).length] := by
  have hbytes : (padRight 8 (bytesText bytes)).length = 8 := by
    rw [length_padRight, length_bytesText]
    omega
  have htext : (padRight 30 (disassemble r.pc bytes)).length = 30 := by
    have hwidth := length_disassemble_le r.pc bytes
    rw [length_padRight]
    omega
  have hnumber : ∀ n, n < 1000 → (padLeft 3 (decimal n)).length = 3 := by
    intro n hn
    have hwidth := length_decimal_le hn
    rw [length_padLeft]
    omega
  have hscanline : (scanline r.cycles).toNat < 262 := by
    rw [scanline, UInt64.toNat_mod]
    exact Nat.mod_lt _ (by decide)
  have hdot : (dot r.cycles).toNat < 341 := by
    rw [dot, UInt64.toNat_mod]
    exact Nat.mod_lt _ (by decide)
  simp only [fields, List.map_cons, List.map_nil, length_hexWord, hbytes, htext, length_hexByte,
    hnumber _ (show (scanline r.cycles).toNat < 1000 by omega),
    hnumber _ (show (dot r.cycles).toNat < 1000 by omega)]
  rfl

/-! ## Layout -/

/-- A line whose columns tell of the registers, of the bytes of the instruction at PC and of where
    the picture unit is. -/
structure LaidOut (line : String) : Prop where
  pc : columns 0 3 line = hexWord r.pc
  opcodes : columns 6 13 line = padRight 8 (bytesText bytes)
  text : columns 16 45 line = padRight 30 (disassemble r.pc bytes)
  text_fits : (disassemble r.pc bytes).length ≤ 30
  a : columns 50 51 line = hexByte r.a
  x : columns 55 56 line = hexByte r.x
  y : columns 60 61 line = hexByte r.y
  status : columns 65 66 line = hexByte r.status.byte
  sp : columns 71 72 line = hexByte r.sp
  scanline : columns 78 80 line = padLeft 3 (decimal (3 * r.cycles.toNat / 341 % 262))
  dot : columns 82 84 line = padLeft 3 (decimal (3 * r.cycles.toNat % 341))
  mark : columns 86 89 line = "CYC:"
  cycles : columnsFrom 90 line = decimal r.cycles.toNat

/-- **What stands in which columns.** -/
theorem laidOut_traceText (hlength : bytes.length ≤ 3) (hcycles : r.cycles.toNat ≤ 2 ^ 64 / 3) :
    r.LaidOut bytes (r.traceText bytes) := by
  have hsum : ∀ k, k ≤ widths.length →
      (((r.fields bytes).map String.length).take k).sum = (widths.take k).sum := by
    intro k hk
    rw [r.widths_fields bytes hlength, List.take_append_of_le_length hk]
  have hat : ∀ (k : Nat) {first last : Nat} {field : String},
      k < widths.length ∧ (widths.take k).sum = first ∧ (widths.take (k + 1)).sum = last + 1 →
        (r.fields bytes)[k]? = some field →
          columns first last (String.join (r.fields bytes)) = field := by
    rintro k first last field ⟨hk, hfirst, hlast⟩ hfield
    exact columns_join hfield ((hsum k (Nat.le_of_lt hk)).trans hfirst)
      ((hsum (k + 1) hk).trans hlast)
  -- the mark is a part of the field before the last
  have hbehind : (String.join (r.fields bytes)).toList.drop 86 =
      "CYC:".toList ++ (decimal r.cycles.toNat).toList := by
    have hlast : (r.fields bytes).drop 19 = [" CYC:", decimal r.cycles.toNat] := rfl
    have hblank : (" CYC:".toList ++ (decimal r.cycles.toNat).toList).drop 1 =
        "CYC:".toList ++ (decimal r.cycles.toNat).toList := rfl
    rw [← hblank, ← List.drop_drop (i := 1) (j := 85),
      drop_join ((hsum 19 (by decide)).trans (by decide)), hlast, List.flatMap_cons,
      List.flatMap_cons, List.flatMap_nil, List.append_nil]
  rw [traceText_eq_join]
  constructor
  case pc => exact hat 0 (by decide) rfl
  case opcodes => exact hat 2 (by decide) rfl
  case text => exact hat 4 (by decide) rfl
  case text_fits => exact Nat.le_trans (length_disassemble_le r.pc bytes) (by decide)
  case a => exact hat 6 (by decide) rfl
  case x => exact hat 8 (by decide) rfl
  case y => exact hat 10 (by decide) rfl
  case status => exact hat 12 (by decide) rfl
  case sp => exact hat 14 (by decide) rfl
  case scanline =>
    rw [← toNat_scanline hcycles]
    exact hat 16 (by decide) rfl
  case dot =>
    rw [← toNat_dot hcycles]
    exact hat 18 (by decide) rfl
  case mark =>
    rw [columns, hbehind, List.take_left' (by decide), String.ofList_toList]
  case cycles => exact columnsFrom_join rfl ((hsum 20 (by decide)).trans (by decide))

/-! ## States -/

/-- A line that is laid out for two states tells of the same. -/
theorem LaidOut.unique {r r' : Registers} {bytes bytes' : List UInt8} {line : String}
    (h : r.LaidOut bytes line) (h' : r'.LaidOut bytes' line) :
    r.pc = r'.pc ∧ bytes = bytes' ∧ r.a = r'.a ∧ r.x = r'.x ∧ r.y = r'.y ∧
      r.status = r'.status ∧ r.sp = r'.sp ∧ r.cycles = r'.cycles := by
  have hstatus : r.status.byte = r'.status.byte := hexByte_inj (h.status.symm.trans h'.status)
  have hbytes : bytes = bytes' := by
    have hread : ∀ bytes, bytesOf? (padRight 8 (bytesText bytes)).toList = some bytes := by
      intro bytes
      rw [padRight, String.toList_append, String.toList_ofList]
      exact bytesOf?_bytesText bytes _
    rw [← Option.some.injEq, ← hread bytes, ← hread bytes', ← h.opcodes, ← h'.opcodes]
  refine ⟨hexWord_inj (h.pc.symm.trans h'.pc), hbytes, hexByte_inj (h.a.symm.trans h'.a),
    hexByte_inj (h.x.symm.trans h'.x), hexByte_inj (h.y.symm.trans h'.y),
    congrArg Status.mk hstatus, hexByte_inj (h.sp.symm.trans h'.sp), ?_⟩
  exact UInt64.toNat_inj.mp (decimal_inj (h.cycles.symm.trans h'.cycles))

end Registers

/-- The bytes of the instruction at an address. -/
def bytesAt {β : Type} [Bus β] (bus : β) (pc : UInt16) : List UInt8 :=
  (cellsFrom pc (lengthAt (Bus.peek bus pc))).map (Bus.peek bus)

/-- **A trace line has fixed columns, and tells the state.**  On memory where reading changes
    nothing, as long as the dots of the picture unit can be counted:

    * the line for any registers tells in its columns of them, of the bytes of the instruction at PC
      and of where the picture unit is;
    * if it is also the line for other registers, be it on other memory, then PC, the bytes of the
      instruction there, A, X, Y, the status, SP and the cycles are the same. -/
theorem trace_line_columns {β : Type} [Bus β] [PassiveBus β] (bus : β) (r : Registers)
    (hcycles : r.cycles.toNat ≤ 2 ^ 64 / 3) :
    let line := (r.traceLine.perform bus).answer
    r.LaidOut (bytesAt bus r.pc) line ∧
      ∀ {γ : Type} [Bus γ] [PassiveBus γ] (bus' : γ) (r' : Registers),
        r'.cycles.toNat ≤ 2 ^ 64 / 3 → (r'.traceLine.perform bus').answer = line →
          r.pc = r'.pc ∧ bytesAt bus r.pc = bytesAt bus' r'.pc ∧ r.a = r'.a ∧ r.x = r'.x ∧
            r.y = r'.y ∧ r.status = r'.status ∧ r.sp = r'.sp ∧ r.cycles = r'.cycles := by
  intro line
  have hlaid : ∀ {γ : Type} [Bus γ] [PassiveBus γ] (bus : γ) (r : Registers),
      r.cycles.toNat ≤ 2 ^ 64 / 3 →
        r.LaidOut (bytesAt bus r.pc) (r.traceLine.perform bus).answer := by
    intro γ _ _ bus r hcycles
    have hlength : (bytesAt bus r.pc).length ≤ 3 := by
      rw [bytesAt, List.length_map, cellsFrom, List.length_map, List.length_range]
      exact lengthAt_le _
    rw [(r.actsAs_traceLine bus).answer_eq]
    exact r.laidOut_traceText _ hlength hcycles
  refine ⟨hlaid bus r hcycles, ?_⟩
  intro γ _ _ bus' r' hcycles' hline
  have hother := hlaid bus' r' hcycles'
  rw [hline] at hother
  exact (hlaid bus r hcycles).unique hother

/-- `JMP $C5F5` at $C000 after seven cycles, when twenty-one dots of the first line are drawn; with
    another value in A the line is another one. -/
theorem trace_line_columns_jump :
    let ram : Ram := Traffic.storeAll (.ofBytes ⟨#[]⟩)
      [(0xC000, 0x4C), (0xC001, 0xF5), (0xC002, 0xC5)]
    let r : Registers := { Registers.powerUp with pc := 0xC000, cycles := 7 }
    let line := (r.traceLine.perform ram).answer
    r.cycles.toNat ≤ 2 ^ 64 / 3 ∧ columns 6 13 line = "4C F5 C5" ∧
      columns 16 45 line = padRight 30 "JMP $C5F5" ∧ columns 78 80 line = "  0" ∧
      columns 82 84 line = " 21" ∧ columnsFrom 90 line = "7" ∧
      (({ r with a := 1 } : Registers).traceLine.perform ram).answer ≠ line := by
  intro ram r line
  have hcells : ram.get 0xC000 = 0x4C ∧ ram.get 0xC001 = 0xF5 ∧ ram.get 0xC002 = 0xC5 := by
    simp only [ram, Traffic.storeAll, List.foldl_cons, List.foldl_nil, Bus.write, Ram.get_set]
    decide
  -- what else the memory holds does not matter
  clear_value ram
  obtain ⟨h0, h1, h2⟩ := hcells
  have hbytes : bytesAt ram r.pc = [0x4C, 0xF5, 0xC5] := by
    have hrow : cellsFrom r.pc (lengthAt 0x4C) = [0xC000, 0xC001, 0xC002] := by decide
    rw [bytesAt, Bus.peek_ram, show ram.get r.pc = 0x4C from h0, hrow, List.map_cons,
      List.map_cons, List.map_cons, List.map_nil, h0, h1, h2]
  have hcycles : r.cycles.toNat ≤ 2 ^ 64 / 3 := by decide
  obtain ⟨hlaid, htells⟩ := trace_line_columns ram r hcycles
  rw [hbytes] at hlaid
  have hopcodes : padRight 8 (bytesText [0x4C, 0xF5, 0xC5]) = "4C F5 C5" := by decide
  have htext : disassemble r.pc [0x4C, 0xF5, 0xC5] = "JMP $C5F5" := by decide
  have hscanline : padLeft 3 (decimal (3 * r.cycles.toNat / 341 % 262)) = "  0" := by decide
  have hdot : padLeft 3 (decimal (3 * r.cycles.toNat % 341)) = " 21" := by decide
  have hseven : decimal r.cycles.toNat = "7" := by decide
  refine ⟨hcycles, hlaid.opcodes.trans hopcodes, ?_, hlaid.scanline.trans hscanline,
    hlaid.dot.trans hdot, hlaid.cycles.trans hseven, ?_⟩
  · rw [hlaid.text, htext]
  · intro hsame
    have ha := (htells ram { r with a := 1 } hcycles hsame).2.2.1
    exact absurd ha (by decide)

end Nes.Cpu
