/-
  Backing: the memory map as one flat array, whose places are told by masks.

  The memory map of the model has an array for each region and an index type for each array, so no
  access can miss.  Here the same memory is one array of 64 KiB beside the program of the
  cartridge; the place of a cell is worked out by masking the address, and whatever reads or stores
  outside an array, or divides by an empty program, gives up.

  1. **Places**: `slot?` masks an address, and comes to the first address of the cell that is seen
     there (`slot?_eq_home`).
  2. **The relation**: a flat array backs a memory map if it is long enough and holds in every place
     what the memory map shows (`Backing.Backs`).  A read then answers (`readStrictly_eq`), and a
     write goes through and keeps the relation up (`exists_writeStrictly`).
  3. **Calls**: so after any calls a read of the flat array shows what was written last to the same
     cell (`readStrictly_after_calls`).
  4. **Computations**: nor does any computation ever give up (`exists_performStrictly`).
-/
import Nes.Proofs.Bus.Cells
import Nes.Proofs.Bus.Shadow

namespace Nes

open Nes.MemoryMap (home cellAt)

/-! ## The program -/

/-- The byte that a program shows at an address, unless it is empty or has no such byte. -/
def programByte (prg : ByteArray) (addr : UInt16) : Option UInt8 :=
  if Nrom.window ≤ addr then
    if prg.size = 0 then none
    else prg[(addr - Nrom.window).toNat % prg.size]?
  else some 0

/-- A board has a program, and the remainder lies in it. -/
theorem programByte_eq (board : Nrom) (addr : UInt16) :
    programByte board.prg addr = some (board.read addr) := by
  have hlt := board.offset_lt addr
  by_cases hle : Nrom.window ≤ addr
  · rw [programByte, if_pos hle, if_neg (Nat.ne_of_gt board.prg_size_pos),
      board.read_of_window_le hle]
    exact getElem?_pos board.prg (board.offset addr) hlt
  · rw [programByte, if_neg hle, board.read_of_lt_window (UInt16.not_le.mp hle)]

/-! ## Places -/

/-- The place of the cell that is seen at an address, if there is one. -/
def slot? (addr : UInt16) : Option UInt16 :=
  if addr ≤ 0x1FFF then some (addr &&& 0x07FF)
  else if addr ≤ 0x3FFF then some (0x2000 ||| (addr &&& 0x0007))
  else if addr ≤ 0x4017 then some addr
  else none

/-- **Masking finds the first address of a cell.** -/
theorem slot?_eq_home (addr : UInt16) : slot? addr = home (Region.of addr) := by
  unfold slot? Region.of
  simp only [UInt16.le_iff_toNat_le, UInt16.reduceToNat]
  by_cases hram : addr.toNat < 0x2000
  · have hmask : addr &&& 0x07FF = UInt16.ofNat (addr.toNat % 2048) := by
      apply UInt16.toNat_inj.mp
      rw [UInt16.toNat_and, UInt16.toNat_ofNat_of_lt' (show addr.toNat % 2048 < 65536 by omega)]
      exact Nat.and_two_pow_sub_one_eq_mod addr.toNat 11
    rw [if_pos (by omega), if_pos hram, hmask]
    rfl
  by_cases hpicture : addr.toNat < 0x4000
  · have hmask : 0x2000 ||| (addr &&& 0x0007) = UInt16.ofNat (0x2000 + addr.toNat % 8) := by
      apply UInt16.toNat_inj.mp
      have hlow : addr.toNat &&& 0x0007 = addr.toNat % 8 :=
        Nat.and_two_pow_sub_one_eq_mod addr.toNat 3
      have hsum : 0x2000 + addr.toNat % 8 = 0x2000 ||| addr.toNat % 8 :=
        Nat.two_pow_add_eq_or_of_lt (show addr.toNat % 8 < 2 ^ 13 by omega) 1
      rw [UInt16.toNat_or, UInt16.toNat_and,
        UInt16.toNat_ofNat_of_lt' (show 0x2000 + addr.toNat % 8 < 65536 by omega)]
      show 0x2000 ||| (addr.toNat &&& 0x0007) = 0x2000 + addr.toNat % 8
      rw [hlow, hsum]
    rw [if_neg (by omega), if_pos (by omega), if_neg hram, if_pos hpicture, hmask]
    rfl
  by_cases hio : addr.toNat < 0x4018
  · have hself : UInt16.ofNat (0x4000 + (addr.toNat - 0x4000)) = addr := by
      rw [Nat.add_sub_cancel' (by omega)]
      exact UInt16.ofNat_toNat
    rw [if_neg (by omega), if_neg (by omega), if_pos (by omega), if_neg hram, if_neg hpicture,
      dif_pos hio]
    exact congrArg some hself.symm
  · rw [if_neg (by omega), if_neg (by omega), if_neg (by omega), if_neg hram, if_neg hpicture,
      dif_neg hio]
    split <;> rfl

/-- Different regions have different first addresses. -/
theorem home_inj {s t : Region} {first : UInt16} (hs : home s = some first)
    (ht : home t = some first) : s = t := by
  have heq := hs.trans ht.symm
  cases s <;> cases t <;>
    simp [home, ← UInt16.toNat_inj, Fin.ext_iff] at heq hs ht ⊢ <;> omega

/-! ## The relation -/

/-- One array for all cells, and the bytes of a program. -/
structure Backing where
  data : Array UInt8
  prg : ByteArray

namespace Backing

/-- A new backing, with zeros in all places. -/
def ofProgram (prg : ByteArray) : Backing := ⟨Array.replicate 0x10000 0, prg⟩

/-- The byte at an address, unless an access misses its array. -/
def readStrictly (b : Backing) (addr : UInt16) : Option UInt8 :=
  match slot? addr with
  | some place => b.data[place.toNat]?
  | none => if addr ≤ 0x401F then some 0 else programByte b.prg addr

/-- The backing with a byte stored at an address, unless the store misses the array. -/
def writeStrictly (b : Backing) (addr : UInt16) (value : UInt8) : Option Backing :=
  match slot? addr with
  | some place =>
    if h : place.toNat < b.data.size then
      some { b with data := b.data.set place.toNat value h }
    else none
  | none => some b

/-- The array is long enough, and shows in every place what the memory map shows there. -/
structure Backs (b : Backing) (m : MemoryMap) : Prop where
  size_eq : b.data.size = 0x10000
  prg_eq : b.prg = m.cartridge.board.prg
  getElem?_eq : ∀ addr place, slot? addr = some place →
    b.data[place.toNat]? = some (m.read addr)

/-- Where there is no place there is no cell. -/
theorem cellAt_eq_none {addr : UInt16} (h : slot? addr = none) : cellAt addr = none := by
  rw [slot?_eq_home] at h
  rw [MemoryMap.cellAt_eq]
  cases hregion : Region.of addr with
  | ram cell => rw [hregion] at h; exact nomatch h
  | picture register => rw [hregion] at h; exact nomatch h
  | io register => rw [hregion] at h; exact nomatch h
  | off | cartridge => rfl

/-- A new backing backs a new memory map. -/
theorem backs_ofCartridge (cartridge : Cartridge) :
    (ofProgram cartridge.board.prg).Backs (.ofCartridge cartridge) where
  size_eq := Array.size_replicate
  prg_eq := rfl
  getElem?_eq := by
    intro addr place hplace
    have hzero : (MemoryMap.ofCartridge cartridge).read addr = 0 := by
      rw [slot?_eq_home] at hplace
      unfold MemoryMap.read
      cases hregion : Region.of addr with
      | ram cell => exact Vector.getElem_replicate _
      | picture register => exact Vector.getElem_replicate _
      | io register => exact Vector.getElem_replicate _
      | off => rfl
      | cartridge => rw [hregion] at hplace; exact nomatch hplace
    rw [hzero]
    exact Array.getElem?_replicate.trans (if_pos place.toNat_lt)

variable {b : Backing} {m : MemoryMap}

/-- **A read answers**, and what the memory map answers. -/
theorem readStrictly_eq (h : b.Backs m) (addr : UInt16) :
    b.readStrictly addr = some (m.read addr) := by
  unfold readStrictly
  cases hplace : slot? addr with
  | some place => exact h.getElem?_eq addr place hplace
  | none =>
    rw [m.read_of_cellAt_eq_none (cellAt_eq_none hplace)]
    by_cases hoff : addr.toNat < 0x4020
    · have hle : addr ≤ 0x401F := UInt16.le_iff_toNat_le.mpr (Nat.le_of_lt_succ hoff)
      rw [if_pos hoff]
      exact if_pos hle
    · have hnot : ¬ addr ≤ 0x401F := fun hle =>
        hoff (Nat.lt_succ_of_le (UInt16.le_iff_toNat_le.mp hle))
      rw [if_neg hoff]
      refine (if_neg hnot).trans ?_
      rw [h.prg_eq]
      exact programByte_eq m.cartridge.board addr

/-- **A write goes through**, and backing and memory map go on together. -/
theorem exists_writeStrictly (h : b.Backs m) (addr : UInt16) (value : UInt8) :
    ∃ b', b.writeStrictly addr value = some b' ∧ b'.Backs (m.write addr value) := by
  cases hplace : slot? addr with
  | none =>
    refine ⟨b, ?_, ?_⟩
    · rw [writeStrictly, hplace]
    · have hle := MemoryMap.le_of_cellAt_eq_none (cellAt_eq_none hplace)
      rwa [MemoryMap.write_of_le m hle value]
  | some place =>
    have hlt : place.toNat < b.data.size := by
      rw [h.size_eq]
      exact place.toNat_lt
    refine ⟨{ b with data := b.data.set place.toNat value hlt }, ?_, ?_, ?_, ?_⟩
    · rw [writeStrictly, hplace]
      exact dif_pos hlt
    · exact (Array.size_set hlt).trans h.size_eq
    · rw [m.cartridge_write]
      exact h.prg_eq
    · intro other place' hplace'
      have hhome : home (Region.of addr) = some place := (slot?_eq_home addr).symm.trans hplace
      have hhome' : home (Region.of other) = some place' := (slot?_eq_home other).symm.trans hplace'
      have hcell : Region.of addr ≠ .off ∧ Region.of addr ≠ .cartridge := by
        constructor
        · intro hoff
          rw [hoff] at hhome
          exact nomatch hhome
        · intro hcartridge
          rw [hcartridge] at hhome
          exact nomatch hhome
      show (b.data.set place.toNat value hlt)[place'.toNat]? = _
      rw [Array.getElem?_set, MemoryMap.read_write]
      by_cases hsame : place = place'
      · have hregion : Region.of addr = Region.of other := home_inj hhome (hsame ▸ hhome')
        rw [if_pos (congrArg UInt16.toNat hsame), if_pos ⟨hregion, hcell⟩]
      · have hregion : Region.of addr ≠ Region.of other := by
          intro heq
          rw [heq, hhome'] at hhome
          exact hsame (Option.some.inj hhome).symm
        rw [if_neg (fun heq => hsame (UInt16.toNat_inj.mp heq)), if_neg fun hall => hregion hall.1]
        exact h.getElem?_eq other place' hplace'

/-! ## Calls -/

/-- The backing after a call, unless an access misses its array. -/
def applyStrictly (b : Backing) : MemoryMap.Call → Option Backing
  | .read _ addr => (b.readStrictly addr).map fun _ => b
  | .write _ addr value => b.writeStrictly addr value

/-- The backing after some calls, unless one of them misses. -/
def afterStrictly (b : Backing) (past : List MemoryMap.Call) : Option Backing :=
  past.foldlM applyStrictly b

/-- One call goes through, and backing and memory map go on together. -/
theorem exists_applyStrictly (h : b.Backs m) (call : MemoryMap.Call) :
    ∃ b', b.applyStrictly call = some b' ∧ b'.Backs (m.apply call) := by
  cases call with
  | read door addr =>
    refine ⟨b, ?_, by cases door <;> exact h⟩
    rw [applyStrictly, readStrictly_eq h addr]
    rfl
  | write door addr value =>
    obtain ⟨b', hwrite, hbacks⟩ := exists_writeStrictly h addr value
    exact ⟨b', hwrite, by cases door <;> exact hbacks⟩

/-- So do any number of calls. -/
theorem exists_afterStrictly (h : b.Backs m) (past : List MemoryMap.Call) :
    ∃ b', b.afterStrictly past = some b' ∧ b'.Backs (m.after past) := by
  induction past generalizing b m with
  | nil => exact ⟨b, rfl, h⟩
  | cons call rest ih =>
    obtain ⟨between, hcall, hbetween⟩ := exists_applyStrictly h call
    obtain ⟨b', hrest, hbacks⟩ := ih hbetween
    refine ⟨b', ?_, hbacks⟩
    rw [afterStrictly, List.foldlM_cons, hcall]
    exact hrest

/-- **One flat array with two masks is a store of 2080 cells.**  No call misses it, and after any
    calls on a new one a read shows what was written last to the same cell, zeros behind the cells,
    and then the cartridge. -/
theorem readStrictly_after_calls (cartridge : Cartridge) (past : List MemoryMap.Call)
    (addr : UInt16) :
    let n := addr.toNat
    ∃ b, (ofProgram cartridge.board.prg).afterStrictly past = some b ∧
      b.readStrictly addr = some
        (if n < 0x2000 then
          (MemoryMap.latest past fun c => c.toNat < 0x2000 ∧ c.toNat % 2048 = n % 2048).getD 0
        else if n < 0x4000 then
          (MemoryMap.latest past fun c =>
            0x2000 ≤ c.toNat ∧ c.toNat < 0x4000 ∧ c.toNat % 8 = n % 8).getD 0
        else if n < 0x4018 then (MemoryMap.latest past fun c => c = addr).getD 0
        else if n < 0x4020 then 0
        else cartridge.read addr) := by
  intro n
  obtain ⟨b, hafter, hbacks⟩ := exists_afterStrictly (backs_ofCartridge cartridge) past
  refine ⟨b, hafter, ?_⟩
  have hanswer := MemoryMap.answer_after cartridge past .direct addr
  rw [readStrictly_eq hbacks]
  exact congrArg some (hanswer.trans (MemoryMap.shownBy_storeAfter cartridge past addr))

end Backing

/-! ## Computations -/

namespace Traffic

variable {α : Type}

/-- Lets a computation act on a backing, and gives up at the first access that misses. -/
def performStrictly : Traffic α → Backing → Option (α × Backing)
  | .done a, b => some (a, b)
  | .read addr next, b => do
    let value ← b.readStrictly addr
    (next value).performStrictly b
  | .write addr value next, b => do
    let b ← b.writeStrictly addr value
    next.performStrictly b
  | .report _ next, b => next.performStrictly b

/-- **No computation misses**: on a backing of the memory map it answers the same, and leaves a
    backing of the memory map it leaves. -/
theorem exists_performStrictly (t : Traffic α) {b : Backing} {m : MemoryMap} (h : b.Backs m) :
    ∃ b', t.performStrictly b = some ((t.perform m).answer, b') ∧ b'.Backs (t.perform m).bus := by
  induction t generalizing b m with
  | done a => exact ⟨b, rfl, h⟩
  | read addr next ih =>
    obtain ⟨b', hb', hbacks⟩ := ih (m.read addr) h
    refine ⟨b', ?_, hbacks⟩
    rw [performStrictly, Backing.readStrictly_eq h addr]
    exact hb'
  | write addr value next ih =>
    obtain ⟨between, hwrite, hbetween⟩ := Backing.exists_writeStrictly h addr value
    obtain ⟨b', hb', hbacks⟩ := ih hbetween
    refine ⟨b', ?_, hbacks⟩
    rw [performStrictly, hwrite]
    exact hb'
  | report record next ih => exact ih h

end Traffic

end Nes
