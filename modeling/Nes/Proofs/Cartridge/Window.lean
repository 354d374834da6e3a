/-
  The window: what of an image the processor sees.

  1. **Above the cells**: from $4018 on the memory map shows zeros and then, from $8000 on, the
     program of the cartridge (`MemoryMap.read_of_le`); the cartridge stays in its slot, whatever
     is computed on the memory map.
  2. **Offsets**: the program is as long as its banks, so at $8000 the first of them is seen, and
     at $C000 the second or, where there is but one, the first again (`windowOffset_eq`).
  3. **Deeds**: a console is called from outside, steps, is reset or is given registers.  One deed
     shows above the cells nothing but zeros and the program (`Machine.shown_of_le`) and does not
     touch the cartridge, so no number of deeds does (`window_of_image`).
-/
import Nes.Proofs.Bus.Cells
import Nes.Proofs.Cartridge.Acceptance
import Nes.Proofs.Cpu.Failing

namespace Nes

/-! ## Above the cells -/

namespace MemoryMap

/-- What is seen from $4018 on. -/
def upper (cartridge : Cartridge) (addr : UInt16) : UInt8 :=
  if addr.toNat < 0x8000 then 0 else cartridge.read addr

theorem read_of_le (m : MemoryMap) {addr : UInt16} (h : 0x4018 ≤ addr.toNat) :
    m.read addr = upper m.cartridge addr := by
  rw [read_of_cellAt_eq_none m (cellAt_eq_none_of_le h), upper]
  by_cases hwindow : addr.toNat < 0x8000
  · have hbelow : addr < Nrom.window := UInt16.lt_iff_toNat_lt.mpr hwindow
    have hzero : m.cartridge.read addr = 0 := m.cartridge.board.read_of_lt_window hbelow
    rw [if_pos hwindow, hzero, ite_self]
  · rw [if_neg hwindow, if_neg (by omega)]

theorem answer_of_le (m : MemoryMap) (door : Door) {addr : UInt16} (h : 0x4018 ≤ addr.toNat) :
    m.answer door addr = upper m.cartridge addr := by
  cases door <;> exact m.read_of_le h

theorem cartridge_apply (m : MemoryMap) (call : Call) :
    (m.apply call).cartridge = m.cartridge := by
  cases call with
  | read door addr => cases door <;> rfl
  | write door addr value => cases door <;> exact m.cartridge_write addr value

end MemoryMap

namespace Traffic

variable {α : Type} (t : Traffic α) (m : MemoryMap)

/-- No computation takes the cartridge out of its slot. -/
theorem cartridge_perform : (t.perform m).bus.cartridge = m.cartridge := by
  induction t generalizing m with
  | done a => rfl
  | read addr next ih => exact ih (m.read addr) m
  | write addr value next ih => exact (ih (m.write addr value)).trans (m.cartridge_write addr value)
  | report record next ih => exact ih m

/-- What a computation reads from $4018 on are zeros and the program. -/
theorem read_upper_of_mem {addr : UInt16} {value : UInt8} (h : 0x4018 ≤ addr.toNat)
    (hmem : .read addr value ∈ (t.perform m).accesses) :
    value = MemoryMap.upper m.cartridge addr := by
  induction t generalizing m with
  | done a => exact nomatch hmem
  | read other next ih =>
    rcases List.mem_cons.mp hmem with hhere | hlater
    · obtain ⟨rfl, rfl⟩ := Access.read.inj hhere
      exact m.read_of_le h
    · exact ih (m.read other) m hlater
  | write other byte next ih =>
    rcases List.mem_cons.mp hmem with hhere | hlater
    · exact nomatch hhere
    · rw [ih (m.write other byte) hlater, m.cartridge_write]
  | report record next ih => exact ih m hmem

end Traffic

/-! ## Offsets -/

namespace Cartridge

variable {image : ByteArray} {c : Cartridge}

/-- Where in the program the byte lies that is seen at an address. -/
def windowOffset (image : ByteArray) (addr : UInt16) : Nat :=
  (addr.toNat - 0x8000) % prgLength image

theorem wellFormed_of_ofImage (h : ofImage image = .ok c) : WellFormed image := by
  refine (firstFault?_eq_none_iff image).mp ?_
  cases hfault : firstFault? image with
  | none => rfl
  | some e =>
    rw [ofImage_of_firstFault? hfault] at h
    exact nomatch h

theorem isPart_prg_of_ofImage (h : ofImage image = .ok c) :
    IsPart c.board.prg image (prgStartOf image) (prgLength image) := by
  obtain ⟨d, hd, -, hprg, -, -⟩ := ofImage_of_wellFormed (wellFormed_of_ofImage h)
  obtain rfl : c = d := Except.ok.inj (h.symm.trans hd)
  exact hprg

/-- **The cartridge shows the bytes of the image.** -/
theorem read_eq_image (h : ofImage image = .ok c) {addr : UInt16} (haddr : 0x8000 ≤ addr.toNat) :
    image[prgStartOf image + windowOffset image addr]? = some (c.read addr) := by
  have hprg := isPart_prg_of_ofImage h
  have hle : Nrom.window ≤ addr := UInt16.le_iff_toNat_le.mpr haddr
  have hsub : (addr - Nrom.window).toNat = addr.toNat - 0x8000 := UInt16.toNat_sub_of_le _ _ hle
  have hoffset : c.board.offset addr = windowOffset image addr := by
    rw [Nrom.offset, hsub, hprg.size_eq, windowOffset]
  have hlt := c.board.offset_lt addr
  have hbyte := hprg.getElem?_eq (c.board.offset addr) (by rwa [hprg.size_eq] at hlt)
  rw [← hoffset, ← hbyte, getElem?_pos c.board.prg (c.board.offset addr) hlt]
  exact congrArg some (c.board.read_of_window_le hle).symm

/-- **Which bank is seen where**: the first in the lower half of the window, and in the upper half
    the second, or the first again if there is no second. -/
theorem windowOffset_eq (hbanks : 1 ≤ (byteAt image 4).toNat) {addr : UInt16}
    (haddr : 0x8000 ≤ addr.toNat) :
    windowOffset image addr =
      16384 * (if addr.toNat < 0xC000 ∨ (byteAt image 4).toNat = 1 then 0 else 1) +
        addr.toNat % 16384 := by
  have hlt := addr.toNat_lt
  rw [windowOffset, prgLength]
  generalize (byteAt image 4).toNat = banks at hbanks ⊢
  by_cases hone : banks = 1
  · rw [if_pos (.inr hone), hone]
    omega
  · rw [Nat.mod_eq_of_lt (by omega)]
    split <;> omega

/-! ### An image with two banks -/

/-- The header of an image with a trainer and two banks of program. -/
def twoBankHeader : Array UInt8 := #[0x4E, 0x45, 0x53, 0x1A, 2, 0, 0x04, 0, 0, 0, 0, 0, 0, 0, 0, 0]

/-- Trainer and first bank are zeros, the second bank is all $EA. -/
def twoBankImage : ByteArray :=
  ⟨twoBankHeader ++ (Array.replicate 16896 0 ++ Array.replicate 16384 0xEA)⟩

theorem size_twoBankImage : twoBankImage.size = 33296 := by
  show Array.size (twoBankHeader ++ (_ ++ _)) = _
  rw [Array.size_append, Array.size_append, Array.size_replicate, Array.size_replicate]
  rfl

theorem byteAt_twoBankImage {k : Nat} (h : k < 16) :
    byteAt twoBankImage k = twoBankHeader[k]?.getD 0 := by
  rw [byteAt, getElem?_eq_data]
  exact congrArg (Option.getD · 0) (Array.getElem?_append_left h)

theorem secondBank_twoBankImage {k : Nat} (h : k < 16384) :
    twoBankImage[528 + (16384 + k)]? = some 0xEA := by
  have hlength : twoBankHeader.size = 16 := rfl
  rw [getElem?_eq_data]
  show (twoBankHeader ++ (_ ++ _))[528 + (16384 + k)]? = _
  rw [Array.getElem?_append_right (by omega),
    Array.getElem?_append_right (by simp only [Array.size_replicate]; omega), hlength,
    Array.size_replicate]
  exact Array.getElem?_replicate.trans (if_pos (by omega))

theorem second_twoBankImage : twoBankImage[528 + 16384]? = some 0xEA := by
  have hfirst := secondBank_twoBankImage (show 0 < 16384 by decide)
  rwa [Nat.add_zero] at hfirst

theorem wellFormed_twoBankImage : WellFormed twoBankImage := by
  have hsize := size_twoBankImage
  have h4 : byteAt twoBankImage 4 = 2 := byteAt_twoBankImage (by decide)
  have h5 : byteAt twoBankImage 5 = 0 := byteAt_twoBankImage (by decide)
  have h6 : byteAt twoBankImage 6 = 0x04 := byteAt_twoBankImage (by decide)
  have h7 : byteAt twoBankImage 7 = 0 := byteAt_twoBankImage (by decide)
  have hend : chrEndOf twoBankImage = 33296 := by
    rw [chrEndOf, prgEndOf, prgStartOf, prgLength, chrLength, h4, h5, h6]
    rfl
  exact ⟨by omega, by rw [h4]; decide, by rw [h6]; rfl, by rw [h7]; rfl, by omega⟩

/-- The upper half of the window shows the second bank. -/
theorem read_twoBankImage (h : ofImage twoBankImage = .ok c) {addr : UInt16}
    (haddr : 0xC000 ≤ addr.toNat) : c.read addr = 0xEA := by
  have h4 : byteAt twoBankImage 4 = 2 := byteAt_twoBankImage (by decide)
  have h6 : byteAt twoBankImage 6 = 0x04 := byteAt_twoBankImage (by decide)
  have hstart : prgStartOf twoBankImage = 528 := by
    rw [prgStartOf, h6]
    rfl
  have hoffset : windowOffset twoBankImage addr = 16384 + addr.toNat % 16384 := by
    rw [windowOffset_eq (by rw [h4]; decide) (by omega), h4, if_neg (by simp; omega)]
  have hbyte := read_eq_image h (show 0x8000 ≤ addr.toNat by omega)
  rw [hstart, hoffset, secondBank_twoBankImage (Nat.mod_lt _ (by decide))] at hbyte
  exact (Option.some.inj hbyte).symm

end Cartridge

/-! ## Deeds -/

namespace Cpu

open Nes.MemoryMap (Call Door upper)

/-- What can be done to a console. -/
inductive Deed where
  /-- Its memory is called from outside. -/
  | call (call : Call)
  | step (tracing : Bool)
  | reset
  /-- Its processor is given new registers. -/
  | enter (registers : Registers)

namespace Machine

/-- The console after a deed. -/
def undergo (m : Machine MemoryMap) : Deed → Machine MemoryMap
  | .call call => ⟨m.registers, m.bus.apply call⟩
  | .step tracing => m.next tracing
  | .reset => .afterReset m.bus
  | .enter registers => ⟨registers, m.bus⟩

/-- The accesses of a deed. -/
def shown (m : Machine MemoryMap) : Deed → List Access
  | .call (.read door addr) => [.read addr (m.bus.answer door addr)]
  | .call (.write _ addr value) => [.write addr value]
  | .step tracing => (m.step tracing).accesses
  | .reset => (Registers.reset.perform m.bus).accesses
  | .enter _ => []

/-- The console after a number of deeds. -/
def undergoAll (m : Machine MemoryMap) (deeds : List Deed) : Machine MemoryMap :=
  deeds.foldl undergo m

/-- The accesses of a number of deeds, in order. -/
def shownIn (m : Machine MemoryMap) : List Deed → List Access
  | [] => []
  | deed :: rest => m.shown deed ++ (m.undergo deed).shownIn rest

variable (m : Machine MemoryMap)

/-- **One deed** leaves the cartridge in its slot. -/
theorem cartridge_undergo (deed : Deed) : (m.undergo deed).bus.cartridge = m.bus.cartridge := by
  cases deed with
  | call call => exact m.bus.cartridge_apply call
  | step tracing => exact (m.registers.step tracing).cartridge_perform m.bus
  | reset => exact Registers.reset.cartridge_perform m.bus
  | enter registers => rfl

/-- **One deed** reads above the cells nothing but zeros and the program. -/
theorem shown_of_le {deed : Deed} {addr : UInt16} {value : UInt8} (h : 0x4018 ≤ addr.toNat)
    (hmem : .read addr value ∈ m.shown deed) : value = upper m.bus.cartridge addr := by
  cases deed with
  | call call =>
    cases call with
    | read door other =>
      obtain ⟨rfl, rfl⟩ := Access.read.inj (List.mem_singleton.mp hmem)
      exact m.bus.answer_of_le door h
    | write door other byte => exact nomatch List.mem_singleton.mp hmem
  | step tracing => exact (m.registers.step tracing).read_upper_of_mem m.bus h hmem
  | reset => exact Registers.reset.read_upper_of_mem m.bus h hmem
  | enter registers => exact nomatch hmem

/-- **Any number of deeds.** -/
theorem upper_of_deeds (deeds : List Deed) :
    (m.undergoAll deeds).bus.cartridge = m.bus.cartridge ∧
      ∀ addr value, 0x4018 ≤ addr.toNat → .read addr value ∈ m.shownIn deeds →
        value = upper m.bus.cartridge addr := by
  induction deeds generalizing m with
  | nil => exact ⟨rfl, fun addr value _ hmem => nomatch hmem⟩
  | cons deed rest ih =>
    obtain ⟨hslot, hreads⟩ := ih (m.undergo deed)
    have hdeed := m.cartridge_undergo deed
    refine ⟨hslot.trans hdeed, fun addr value h hmem => ?_⟩
    rcases List.mem_append.mp hmem with hfirst | hlater
    · exact m.shown_of_le h hfirst
    · rw [hreads addr value h hlater, hdeed]

/-- Where zeros are seen there is nothing to execute. -/
theorem step_of_upper (tracing : Bool) (hlow : 0x4018 ≤ m.registers.pc.toNat)
    (hhigh : m.registers.pc.toNat < 0x8000) :
    (m.step tracing).answer =
      ⟨.error (.unimplementedOpcode 0x00 .softwareInterrupt m.registers.pc), m.registers⟩ := by
  have hzero : Bus.peek m.bus m.registers.pc = 0 := by
    rw [Bus.peek_memoryMap, m.bus.read_of_le hlow, upper, if_pos hhigh]
  exact step_of_zero tracing hzero

end Machine

/-- **From the image to the processor.**  Let an image be accepted and its cartridge be in the slot.
    Whatever has been done to the console, and whenever it is asked, at $8000 and above it shows the
    program in the image, bank by bank; from $4018 to $7FFF it shows zeros, so that a step there
    fails. -/
theorem window_of_image {image : ByteArray} {c : Cartridge}
    (haccepted : Cartridge.ofImage image = .ok c) (m : Machine MemoryMap)
    (hslot : m.bus.cartridge = c) (deeds : List Deed) :
    let banks := (Cartridge.byteAt image 4).toNat
    let start := if (Cartridge.byteAt image 6).toNat.testBit 2 then 528 else 16
    let offset := fun addr : UInt16 => (addr.toNat - 0x8000) % (16384 * banks)
    let last := m.undergoAll deeds
    -- the program lies within the image, and what is seen lies within the program
    (1 ≤ banks ∧ start + 16384 * banks ≤ image.size ∧ ∀ addr, offset addr < 16384 * banks) ∧
    (∀ addr : UInt16, 0x8000 ≤ addr.toNat → offset addr =
      16384 * (if addr.toNat < 0xC000 ∨ banks = 1 then 0 else 1) + addr.toNat % 16384) ∧
    (∀ addr : UInt16, 0x8000 ≤ addr.toNat →
      (∀ door, image[start + offset addr]? = some (last.bus.answer door addr)) ∧
      ∀ value, .read addr value ∈ m.shownIn deeds → image[start + offset addr]? = some value) ∧
    (∀ addr : UInt16, 0x4018 ≤ addr.toNat → addr.toNat < 0x8000 →
      (∀ door, last.bus.answer door addr = 0) ∧
      ∀ value, .read addr value ∈ m.shownIn deeds → value = 0) ∧
    (∀ tracing, 0x4018 ≤ last.registers.pc.toNat → last.registers.pc.toNat < 0x8000 →
      (last.step tracing).answer =
        ⟨.error (.unimplementedOpcode 0x00 .softwareInterrupt last.registers.pc),
          last.registers⟩) ∧
    Operation.softwareInterrupt.mnemonic = "BRK" := by
  intro banks start offset last
  have hwell := Cartridge.wellFormed_of_ofImage haccepted
  have hbanks : 1 ≤ banks := by
    have hne : banks ≠ 0 := fun hzero => hwell.program (UInt8.toNat_inj.mp hzero)
    omega
  obtain ⟨hlast, hreads⟩ := m.upper_of_deeds deeds
  rw [hslot] at hlast hreads
  have hanswer : ∀ door addr, 0x4018 ≤ addr.toNat → last.bus.answer door addr = upper c addr := by
    intro door addr h
    rw [last.bus.answer_of_le door h, hlast]
  refine ⟨⟨hbanks, hwell.prgEndOf_le, fun addr => Nat.mod_lt _ (by omega)⟩, ?_, ?_, ?_, ?_, rfl⟩
  · exact fun addr haddr => Cartridge.windowOffset_eq hbanks haddr
  · intro addr haddr
    have hbyte : image[start + offset addr]? = some (c.read addr) :=
      Cartridge.read_eq_image haccepted haddr
    have hupper : upper c addr = c.read addr := if_neg (by omega)
    refine ⟨fun door => ?_, fun value hmem => ?_⟩
    · rw [hbyte, hanswer door addr (by omega), hupper]
    · rw [hbyte, hreads addr value (by omega) hmem, hupper]
  · intro addr hlow hhigh
    have hupper : upper c addr = 0 := if_pos hhigh
    refine ⟨fun door => ?_, fun value hmem => ?_⟩
    · rw [hanswer door addr hlow, hupper]
    · rw [hreads addr value hlow hmem, hupper]
  · exact fun tracing => last.step_of_upper tracing

/-- A write to $C000 and a reset later, $C000 still shows the second bank. -/
theorem window_of_image_twoBank :
    ∃ c, Cartridge.ofImage Cartridge.twoBankImage = .ok c ∧
      let m : Machine MemoryMap := ⟨.powerUp, .ofCartridge c⟩
      let deeds : List Deed := [.call (.write .bus 0xC000 0xFF), .reset, .step false]
      (m.undergoAll deeds).bus.answer .bus 0xC000 = 0xEA := by
  obtain ⟨c, hc, -⟩ := Cartridge.ofImage_of_wellFormed Cartridge.wellFormed_twoBankImage
  refine ⟨c, hc, ?_⟩
  intro m deeds
  obtain ⟨-, -, hwindow, -⟩ := window_of_image hc m rfl deeds
  have hbyte := (hwindow 0xC000 (by decide)).1 .bus
  rw [Cartridge.byteAt_twoBankImage (show 4 < 16 by decide),
    Cartridge.byteAt_twoBankImage (show 6 < 16 by decide)] at hbyte
  exact (Option.some.inj (Cartridge.second_twoBankImage.symm.trans hbyte)).symm

end Cpu

end Nes
