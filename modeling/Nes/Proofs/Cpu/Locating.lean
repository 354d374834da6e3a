/-
  Locating: the cell to which each addressing mode leads, in numbers.

  Finding an operand is done in bytes and words, and each sum wraps at the width of the wires that
  carry it.  Here the same is said with numbers and remainders, so that the four ways to wrap can be
  told apart:

  * an index added to a page-zero address is taken modulo 256;
  * the second byte of a pointer in page zero lies at the next number modulo 256;
  * the second byte of an indirect jump's target lies in the page of the first;
  * an index added to a whole address is taken modulo 65536.

  1. **Specification**: `Mode.Locates` says for each of the thirteen modes what it finds, from the
     byte at PC, the word there and the two index registers; `Mode.LeavesPage` says when the index
     carries the address out of the page of its base.
  2. **Correctness** (`resolve_locates`): in every state each mode finds what it should, and reports
     a crossing exactly where the low byte of the base and the index add up to 256 or more, whether
     or not the whole sum passes the end of memory.
-/
import Nes.Proofs.Cpu.Arithmetic
import Nes.Proofs.Cpu.Finding

namespace Nes.Cpu

/-! ## Cells by number -/

/-- The operand is the cell of the given number. -/
def Operand.IsCell (operand : Operand) (n : Nat) : Prop :=
  ∃ addr, operand = .address addr ∧ addr.toNat = n

/-- The number in the cell of the given number. -/
def cellValue (ram : Ram) (n : Nat) : Nat := (ram.get (UInt16.ofNat n)).toNat

/-- The number in two cells, the low byte first. -/
def pairValue (ram : Ram) (low high : Nat) : Nat := cellValue ram low + 256 * cellValue ram high

/-- The number to which a pointer in page zero leads: its second byte is in page zero too. -/
def zeroPageValue (ram : Ram) (pointer : Nat) : Nat :=
  pairValue ram pointer ((pointer + 1) % 256)

/-- The number to which a pointer leads whose second byte is in the page of the first. -/
def samePageValue (ram : Ram) (pointer : Nat) : Nat :=
  pairValue ram pointer (256 * (pointer / 256) + (pointer + 1) % 256)

@[simp] theorem cellValue_toNat (ram : Ram) (addr : UInt16) :
    cellValue ram addr.toNat = (ram.get addr).toNat := by
  rw [cellValue, UInt16.ofNat_toNat]

/-! ## What each mode should find -/

namespace Mode

section

variable (ram : Ram) (r : Registers)

/-- The byte at PC, as a number. -/
def byteHere : Nat := (ram.get r.pc).toNat

/-- The word at PC, as a number. -/
def wordHere : Nat := (ram.get r.pc).toNat + 256 * (ram.get (r.pc + 1)).toNat

/-- What a mode is to find when PC stands behind the opcode. -/
def Locates (operand : Operand) : Mode → Prop
  | .implied => operand = .implied
  | .accumulator => operand = .accumulator
  | .immediate => ∃ value, operand = .immediate value ∧ value.toNat = byteHere ram r
  | .relative => ∃ distance, operand = .relative distance ∧
      distance.toInt =
        if byteHere ram r < 128 then (byteHere ram r : Int) else (byteHere ram r : Int) - 256
  | .zeroPage => operand.IsCell (byteHere ram r)
  | .zeroPageX => operand.IsCell ((byteHere ram r + r.x.toNat) % 256)
  | .zeroPageY => operand.IsCell ((byteHere ram r + r.y.toNat) % 256)
  | .absolute => operand.IsCell (wordHere ram r)
  | .absoluteX => operand.IsCell ((wordHere ram r + r.x.toNat) % 65536)
  | .absoluteY => operand.IsCell ((wordHere ram r + r.y.toNat) % 65536)
  | .indirect => operand.IsCell (samePageValue ram (wordHere ram r))
  | .preIndexedIndirect =>
    operand.IsCell (zeroPageValue ram ((byteHere ram r + r.x.toNat) % 256))
  | .postIndexedIndirect =>
    operand.IsCell ((zeroPageValue ram (byteHere ram r) + r.y.toNat) % 65536)

/-- The modes that add an index to a whole address, where the low byte of the base and the index add
    up to more than a byte. -/
def LeavesPage : Mode → Prop
  | .absoluteX => 256 ≤ wordHere ram r % 256 + r.x.toNat
  | .absoluteY => 256 ≤ wordHere ram r % 256 + r.y.toNat
  | .postIndexedIndirect => 256 ≤ zeroPageValue ram (byteHere ram r) % 256 + r.y.toNat
  | _ => False

/-! ## What each mode finds -/

/-- The registers with PC one byte back, where the opcode stands. -/
def atOpcode : Registers := { r with pc := r.pc - 1 }

theorem lowAt_atOpcode : lowAt ram.get (atOpcode r) = ram.get r.pc := by
  show ram.get (r.pc - 1 + 1) = _
  rw [UInt16.sub_add_cancel]

theorem wordAt_atOpcode :
    wordAt ram.get (atOpcode r) = word (ram.get r.pc) (ram.get (r.pc + 1)) := by
  have hlow : r.pc - 1 + 1 = r.pc := UInt16.sub_add_cancel r.pc 1
  have hhigh : r.pc - 1 + 2 = r.pc + 1 := by grind
  show word (ram.get (r.pc - 1 + 1)) (ram.get (r.pc - 1 + 2)) = _
  rw [hlow, hhigh]

theorem toNat_wordAt : (wordAt ram.get (atOpcode r)).toNat = wordHere ram r := by
  rw [wordAt_atOpcode, toNat_word, wordHere]

theorem toNat_zeroPageWord (pointer : UInt8) :
    (zeroPageWord ram.get pointer).toNat = zeroPageValue ram pointer.toNat := by
  have hhigh : (pointer + 1).toUInt16.toNat = (pointer.toNat + 1) % 256 := by
    rw [UInt8.toNat_toUInt16, UInt8.toNat_add]
    rfl
  rw [zeroPageWord, toNat_word, zeroPageValue, pairValue, ← hhigh, ← UInt8.toNat_toUInt16 pointer,
    cellValue_toNat, cellValue_toNat]

theorem toNat_samePageWord (pointer : UInt16) :
    (samePageWord ram.get pointer).toNat = samePageValue ram pointer.toNat := by
  have hhigh : (word (lowByte pointer + 1) (highByte pointer)).toNat =
      256 * (pointer.toNat / 256) + (pointer.toNat + 1) % 256 := by
    rw [toNat_word, toNat_highByte, UInt8.toNat_add, toNat_lowByte]
    show (pointer.toNat % 256 + 1) % 256 + 256 * (pointer.toNat / 256) = _
    omega
  rw [samePageWord, toNat_word, samePageValue, pairValue, ← hhigh, cellValue_toNat,
    cellValue_toNat]

/-- An index is added within page zero. -/
theorem toNat_inPageZero (low index : UInt8) :
    (low + index).toUInt16.toNat = (low.toNat + index.toNat) % 256 := by
  rw [UInt8.toNat_toUInt16, UInt8.toNat_add]

/-- An index is added to a whole address modulo 65536. -/
theorem toNat_indexed (base : UInt16) (index : UInt8) :
    (base + index.toUInt16).toNat = (base.toNat + index.toNat) % 65536 := by
  rw [UInt16.toNat_add, UInt8.toNat_toUInt16]

/-- **The operand is the one that the mode should find.** -/
theorem locates_find (mode : Mode) : mode.Locates ram r (mode.find ram.get (atOpcode r)) := by
  have hbyte : (lowAt ram.get (atOpcode r)).toNat = byteHere ram r := by
    rw [lowAt_atOpcode, byteHere]
  have hword := toNat_wordAt ram r
  cases mode with
  | implied | accumulator => rfl
  | immediate => exact ⟨_, rfl, hbyte⟩
  | relative =>
    have hsigned := signed_eq (lowAt ram.get (atOpcode r))
    rw [hbyte] at hsigned
    exact ⟨_, rfl, hsigned⟩
  | zeroPage =>
    refine ⟨_, rfl, ?_⟩
    rw [UInt8.toNat_toUInt16, hbyte]
  | zeroPageX =>
    refine ⟨_, rfl, ?_⟩
    rw [toNat_inPageZero, hbyte]
    rfl
  | zeroPageY =>
    refine ⟨_, rfl, ?_⟩
    rw [toNat_inPageZero, hbyte]
    rfl
  | absolute => exact ⟨_, rfl, hword⟩
  | absoluteX =>
    refine ⟨_, rfl, ?_⟩
    rw [toNat_indexed, hword]
    rfl
  | absoluteY =>
    refine ⟨_, rfl, ?_⟩
    rw [toNat_indexed, hword]
    rfl
  | indirect =>
    refine ⟨_, rfl, ?_⟩
    rw [toNat_samePageWord, hword]
  | preIndexedIndirect =>
    have hpointer := toNat_inPageZero (lowAt ram.get (atOpcode r)) r.x
    rw [UInt8.toNat_toUInt16, hbyte] at hpointer
    refine ⟨_, rfl, ?_⟩
    rw [← hpointer]
    exact toNat_zeroPageWord ram _
  | postIndexedIndirect =>
    refine ⟨_, rfl, ?_⟩
    rw [toNat_indexed, toNat_zeroPageWord, hbyte]
    rfl

/-- What is found in page zero, with an index or without, lies there. -/
theorem find_inPageZero {mode : Mode} (hmode : mode ∈ [.zeroPage, .zeroPageX, .zeroPageY]) :
    ∃ addr, mode.find ram.get (atOpcode r) = .address addr ∧ addr < 0x0100 := by
  have hsmall : ∀ low : UInt8, low.toUInt16 < 0x0100 := by
    intro low
    rw [UInt16.lt_iff_toNat_lt, UInt8.toNat_toUInt16]
    exact low.toNat_lt
  rcases mode with _ | _ | _ | _ | _ | _ | _ | _ | _ | _ | _ | _ | _ <;> first
    | exact absurd hmode (by decide)
    | exact ⟨_, rfl, hsmall _⟩

/-- **A crossing is where the low byte of the base and the index overflow.** -/
theorem crosses_iff (mode : Mode) :
    mode.crosses ram.get (atOpcode r) = true ↔ mode.LeavesPage ram r := by
  have hoverflows : ∀ {sum : UInt16} {base : Nat} (index : UInt8), sum.toNat = base →
      (overflows sum index = true ↔ 256 ≤ base % 256 + index.toNat) := by
    rintro sum base index rfl
    rw [overflows, decide_eq_true_iff, toNat_lowByte]
  cases mode with
  | absoluteX => exact hoverflows r.x (toNat_wordAt ram r)
  | absoluteY => exact hoverflows r.y (toNat_wordAt ram r)
  | postIndexedIndirect =>
    have hbyte : (lowAt ram.get (atOpcode r)).toNat = byteHere ram r := by
      rw [lowAt_atOpcode, byteHere]
    have hpointer := toNat_zeroPageWord ram (lowAt ram.get (atOpcode r))
    rw [hbyte] at hpointer
    exact hoverflows r.y hpointer
  | _ => exact iff_of_false Bool.false_ne_true not_false

/-- **Every mode finds its operand**: in every state of a processor on flat memory with PC behind
    the opcode, the operand is the one that the bytes there and the index registers say.  What is
    found in page zero, with an index or without, lies below $0100; a crossing is reported exactly
    by the modes that add an index to a whole address, where the low byte of the base and the index
    add up to 256 or more.  PC goes behind the operand, and nothing else changes. -/
theorem resolve_locates (mode : Mode) :
    let done := (mode.resolve r).perform ram
    let found := done.answer
    mode.Locates ram r found.operand ∧
      (mode ∈ [.zeroPage, .zeroPageX, .zeroPageY] →
        ∃ addr, found.operand = .address addr ∧ addr < 0x0100) ∧
      (found.crossed = true ↔ mode.LeavesPage ram r) ∧
      found.registers = { r with pc := r.pc + UInt16.ofNat mode.operandLength } ∧
      done.bus = ram := by
  intro done found
  have hbehind : behindOpcode (atOpcode r) r.stepCycles = r := by
    show { r with pc := r.pc - 1 + 1 } = r
    rw [UInt16.sub_add_cancel]
  have hdone := perform_resolve ram (atOpcode r) r.stepCycles mode
  rw [hbehind] at hdone
  have hfound : found = _ := congrArg Traffic.Performed.answer hdone
  have hoperand : found.operand = mode.find ram.get (atOpcode r) := by rw [hfound]; rfl
  have hlocates := locates_find ram r mode
  rw [← hoperand] at hlocates
  refine ⟨hlocates, ?_, ?_, ?_, ?_⟩
  · intro hmode
    rw [hoperand]
    exact find_inPageZero ram r hmode
  · rw [← crosses_iff, hfound]
    rfl
  · have hpc : r.pc - 1 + UInt16.ofNat (1 + mode.operandLength) =
        r.pc + UInt16.ofNat mode.operandLength := by
      rw [UInt16.ofNat_add]
      grind
    rw [hfound, ← hpc]
    rfl
  · exact congrArg Traffic.Performed.bus hdone

end

/-- From $FFFF an index leads past the end of memory, and so out of the page; in page zero it leads
    from $FF to $00. -/
theorem resolve_locates_past_end :
    let ram : Ram := .ofBytes ⟨#[0xFF, 0xFF]⟩
    let r : Registers := { Registers.powerUp with x := 0x01 }
    let found := ((absoluteX.resolve r).perform ram).answer
    let wrapped := ((zeroPageX.resolve r).perform ram).answer
    (found.operand.IsCell 0 ∧ found.crossed = true) ∧
      wrapped.operand.IsCell 0 ∧ wrapped.crossed = false := by
  intro ram r found wrapped
  have hlow : ram.get r.pc = 0xFF := Ram.get_ofBytes _ _
  have hhigh : ram.get (r.pc + 1) = 0xFF := Ram.get_ofBytes _ _
  have hbyte : byteHere ram r = 0xFF := by
    rw [byteHere, hlow]
    rfl
  have hword : wordHere ram r = 0xFFFF := by
    rw [wordHere, hlow, hhigh]
    rfl
  have hx : r.x.toNat = 1 := rfl
  obtain ⟨hfound, -, hcrossed, -⟩ := resolve_locates ram r .absoluteX
  obtain ⟨hwrapped, -, hstays, -⟩ := resolve_locates ram r .zeroPageX
  rw [Locates, hword, hx] at hfound
  rw [Locates, hbyte, hx] at hwrapped
  have hleaves : LeavesPage ram r .absoluteX := by
    show 256 ≤ wordHere ram r % 256 + r.x.toNat
    omega
  refine ⟨⟨hfound, hcrossed.mpr hleaves⟩, hwrapped, ?_⟩
  rw [← Bool.not_eq_true]
  intro htrue
  exact hstays.mp htrue

end Mode

end Nes.Cpu
