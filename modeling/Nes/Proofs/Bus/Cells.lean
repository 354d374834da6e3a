/-
  Cells: the memory map as a store of 2080 cells, some of which are seen at many addresses.

  1. **The store**: 2048 cells of RAM, 8 of the picture unit and 24 of sound and input, numbered
     through.  `cellAt` is the cell that is seen at an address, if there is one; beside the cells
     there are zeros and the cartridge (`shownBy`).  A write to an address replaces one cell.
  2. **Refinement**: the memory map `Holds` the cells of a store if it shows at every address what
     they show.  Each call on both sides keeps this up (`Holds.apply`), and so does any number of
     calls (`Holds.after`).
  3. **History**: a cell of the store is the byte written last to any of its addresses
     (`storeAfter_eq_latest`), so a read of the memory map is told by the calls before it alone
     (`read_after_calls`).
-/
import Nes.MemoryMap

namespace Nes.MemoryMap

/-! ## Calls -/

/-- The two ways to the memory map: by its own functions, and as a bus. -/
inductive Door where
  | direct
  | bus
  deriving DecidableEq

/-- A read or a write by either way. -/
inductive Call where
  | read (door : Door) (addr : UInt16)
  | write (door : Door) (addr : UInt16) (value : UInt8)
  deriving DecidableEq

/-- The address of a call. -/
def Call.addr : Call → UInt16
  | .read _ addr => addr
  | .write _ addr _ => addr

/-- The memory map after a call. -/
def apply (m : MemoryMap) : Call → MemoryMap
  | .read .direct _ => m
  | .read .bus addr => (Bus.read m addr).2
  | .write .direct addr value => m.write addr value
  | .write .bus addr value => Bus.write m addr value

/-- The memory map after some calls. -/
def after (m : MemoryMap) (past : List Call) : MemoryMap := past.foldl apply m

/-- The byte that is read at an address. -/
def answer (m : MemoryMap) : Door → UInt16 → UInt8
  | .direct, addr => m.read addr
  | .bus, addr => (Bus.read m addr).1

/-! ## The store -/

/-- The cell that is seen at an address, if there is one. -/
def cellAt (addr : UInt16) : Option (Fin 2080) :=
  let n := addr.toNat
  if n < 0x2000 then some ⟨n % 2048, by omega⟩
  else if n < 0x4000 then some ⟨2048 + n % 8, by omega⟩
  else if h : n < 0x4018 then some ⟨2056 + (n - 0x4000), by omega⟩
  else none

/-- What is seen at an address, given the bytes in the cells. -/
def shownBy (cells : Fin 2080 → UInt8) (cartridge : Cartridge) (addr : UInt16) : UInt8 :=
  match cellAt addr with
  | some cell => cells cell
  | none => if addr.toNat < 0x4020 then 0 else cartridge.read addr

/-- The cells after a call: a write replaces the byte of the cell that is seen at its address. -/
def storeApply (cells : Fin 2080 → UInt8) : Call → Fin 2080 → UInt8
  | .read _ _ => cells
  | .write _ addr value => fun cell => if cellAt addr = some cell then value else cells cell

/-- The cells after some calls. -/
def storeAfter (cells : Fin 2080 → UInt8) (past : List Call) : Fin 2080 → UInt8 :=
  past.foldl storeApply cells

/-! ## Cells and regions -/

/-- The number of the cell that answers, if a cell does. -/
def cellOf : Region → Option (Fin 2080)
  | .ram cell => some ⟨cell.val, Nat.lt_trans cell.isLt (by decide)⟩
  | .picture register =>
    some ⟨2048 + register.val, Nat.lt_trans (Nat.add_lt_add_left register.isLt 2048) (by decide)⟩
  | .io register => some ⟨2056 + register.val, Nat.add_lt_add_left register.isLt 2056⟩
  | .off | .cartridge => none

theorem cellAt_eq (addr : UInt16) : cellAt addr = cellOf (Region.of addr) := by
  unfold cellAt Region.of
  dsimp only
  split
  · rfl
  split
  · rfl
  split
  · rfl
  split <;> rfl

/-- The numbers of the cells tell them apart. -/
theorem cellOf_inj {s t : Region} {cell : Fin 2080} (hs : cellOf s = some cell)
    (ht : cellOf t = some cell) : s = t := by
  have heq := hs.trans ht.symm
  cases s <;> cases t <;> simp [cellOf] at heq hs ht ⊢ <;> omega

/-- What answers at two addresses is the same cell just where the same cell is seen at both. -/
theorem sameCell_iff (a b : UInt16) :
    (Region.of a = Region.of b ∧ Region.of a ≠ .off ∧ Region.of a ≠ .cartridge) ↔
      ∃ cell, cellAt a = some cell ∧ cellAt b = some cell := by
  rw [cellAt_eq, cellAt_eq]
  constructor
  · rintro ⟨hsame, hoff, hcartridge⟩
    rw [← hsame]
    cases hregion : Region.of a with
    | ram cell => exact ⟨_, rfl, rfl⟩
    | picture register => exact ⟨_, rfl, rfl⟩
    | io register => exact ⟨_, rfl, rfl⟩
    | off => exact absurd hregion hoff
    | cartridge => exact absurd hregion hcartridge
  · rintro ⟨cell, ha, hb⟩
    refine ⟨cellOf_inj ha hb, ?_, ?_⟩
    · intro hoff
      rw [hoff] at ha
      exact nomatch ha
    · intro hcartridge
      rw [hcartridge] at ha
      exact nomatch ha

/-- Where no cell is seen, the memory map shows zeros and the cartridge. -/
theorem read_of_cellAt_eq_none (m : MemoryMap) {addr : UInt16} (h : cellAt addr = none) :
    m.read addr = if addr.toNat < 0x4020 then 0 else m.cartridge.read addr := by
  unfold cellAt at h
  dsimp only at h
  split at h
  · exact nomatch h
  split at h
  · exact nomatch h
  split at h
  · exact nomatch h
  · rename_i hram hpicture hio
    unfold read Region.of
    dsimp only
    rw [if_neg hram, if_neg hpicture, dif_neg hio]
    by_cases hoff : addr.toNat < 0x4020
    · rw [if_pos hoff, if_pos hoff]
    · rw [if_neg hoff, if_neg hoff]

/-! ## Refinement -/

/-- The memory map shows at every address what the cells show. -/
def Holds (m : MemoryMap) (cells : Fin 2080 → UInt8) : Prop :=
  ∀ addr, m.read addr = shownBy cells m.cartridge addr

namespace Holds

/-- A new memory map holds zeros. -/
theorem ofCartridge (cartridge : Cartridge) :
    (MemoryMap.ofCartridge cartridge).Holds fun _ => 0 := by
  intro addr
  unfold shownBy
  cases hcell : cellAt addr with
  | none => exact read_of_cellAt_eq_none _ hcell
  | some cell =>
    rw [cellAt_eq] at hcell
    unfold read
    cases hregion : Region.of addr with
    | ram cell => exact Vector.getElem_replicate _
    | picture register => exact Vector.getElem_replicate _
    | io register => exact Vector.getElem_replicate _
    | off => rfl
    | cartridge => rw [hregion] at hcell; exact nomatch hcell

variable {m : MemoryMap} {cells : Fin 2080 → UInt8}

/-- A write replaces the one cell that is seen at its address. -/
theorem write (h : m.Holds cells) (door : Door) (a : UInt16) (value : UInt8) :
    (m.write a value).Holds (storeApply cells (.write door a value)) := by
  intro b
  rw [read_write, cartridge_write, h b]
  simp only [sameCell_iff, shownBy]
  cases cellAt b with
  | none => simp
  | some cell => simp [storeApply]

/-- **One call**: what the cells are to the memory map, they are after the call on both sides. -/
theorem apply (h : m.Holds cells) (call : Call) :
    (m.apply call).Holds (storeApply cells call) ∧ (m.apply call).cartridge = m.cartridge := by
  cases call with
  | read door addr => cases door <;> exact ⟨h, rfl⟩
  | write door addr value =>
    cases door <;> exact ⟨h.write _ addr value, cartridge_write m addr value⟩

/-- **Any number of calls.** -/
theorem after (h : m.Holds cells) (past : List Call) :
    (m.after past).Holds (storeAfter cells past) ∧ (m.after past).cartridge = m.cartridge := by
  induction past generalizing m cells with
  | nil => exact ⟨h, rfl⟩
  | cons call rest ih =>
    obtain ⟨hcall, hcartridge⟩ := h.apply call
    obtain ⟨hrest, hcartridge'⟩ := ih hcall
    exact ⟨hrest, hcartridge'.trans hcartridge⟩

end Holds

/-! ## History -/

/-- The byte that a call writes to one of the addresses in question. -/
def Call.written? (wanted : UInt16 → Bool) : Call → Option UInt8
  | .read _ _ => none
  | .write _ addr value => if wanted addr then some value else none

/-- The byte of the latest write to one of the addresses in question, if there is one. -/
def latest (past : List Call) (wanted : UInt16 → Bool) : Option UInt8 :=
  past.reverse.findSome? (Call.written? wanted)

theorem latest_cons (call : Call) (rest : List Call) (wanted : UInt16 → Bool) :
    latest (call :: rest) wanted = (latest rest wanted).or (call.written? wanted) := by
  simp [latest, List.findSome?_append]

/-- **A cell is what was written to it last.** -/
theorem storeAfter_eq_latest (cells : Fin 2080 → UInt8) (past : List Call) (cell : Fin 2080) :
    storeAfter cells past cell =
      (latest past fun addr => cellAt addr = some cell).getD (cells cell) := by
  induction past generalizing cells with
  | nil => rfl
  | cons call rest ih =>
    have hcall : storeApply cells call cell =
        (call.written? fun addr => cellAt addr = some cell).getD (cells cell) := by
      cases call with
      | read door addr => rfl
      | write door addr value =>
        by_cases h : cellAt addr = some cell <;> simp [storeApply, Call.written?, h]
    show storeAfter (storeApply cells call) rest cell = _
    rw [ih, hcall, latest_cons]
    cases latest rest fun addr => cellAt addr = some cell <;> rfl

/-! ## What a read shows -/

/-- The five ranges of the address space. -/
inductive Zone where
  | ram
  | picture
  | io
  | off
  | cartridge
  deriving DecidableEq

/-- The range in which an address lies. -/
def Zone.of (addr : UInt16) : Zone :=
  let n := addr.toNat
  if n < 0x2000 then .ram
  else if n < 0x4000 then .picture
  else if n < 0x4018 then .io
  else if n < 0x4020 then .off
  else .cartridge

/-- Which cell is seen where. -/
theorem cellAt_eq_some_iff {addr : UInt16} {cell : Fin 2080} :
    cellAt addr = some cell ↔
      addr.toNat < 0x2000 ∧ cell.val = addr.toNat % 2048 ∨
      0x2000 ≤ addr.toNat ∧ addr.toNat < 0x4000 ∧ cell.val = 2048 + addr.toNat % 8 ∨
      0x4000 ≤ addr.toNat ∧ addr.toNat < 0x4018 ∧ cell.val = 2056 + (addr.toNat - 0x4000) := by
  unfold cellAt
  dsimp only
  split
  · simp only [Option.some.injEq, Fin.ext_iff]
    omega
  split
  · simp only [Option.some.injEq, Fin.ext_iff]
    omega
  split
  · simp only [Option.some.injEq, Fin.ext_iff]
    omega
  · constructor
    · exact nofun
    · omega

/-- Behind the registers of sound and input no cell is seen. -/
theorem le_of_cellAt_eq_none {addr : UInt16} (h : cellAt addr = none) : 0x4018 ≤ addr.toNat := by
  unfold cellAt at h
  dsimp only at h
  split at h
  · exact nomatch h
  split at h
  · exact nomatch h
  split at h
  · exact nomatch h
  · omega

theorem cellAt_eq_none_of_le {addr : UInt16} (h : 0x4018 ≤ addr.toNat) : cellAt addr = none := by
  unfold cellAt
  dsimp only
  rw [if_neg (by omega), if_neg (by omega), dif_neg (by omega)]

/-- A write to where no cell is seen goes nowhere. -/
theorem write_of_le (m : MemoryMap) {addr : UInt16} (h : 0x4018 ≤ addr.toNat) (value : UInt8) :
    m.write addr value = m := by
  have hcell := cellAt_eq_none_of_le h
  rw [cellAt_eq] at hcell
  unfold write
  cases hregion : Region.of addr with
  | ram cell => rw [hregion] at hcell; exact nomatch hcell
  | picture register => rw [hregion] at hcell; exact nomatch hcell
  | io register => rw [hregion] at hcell; exact nomatch hcell
  | off => rfl
  | cartridge => rfl

/-- Every cell is seen somewhere. -/
theorem exists_cellAt (cell : Fin 2080) : ∃ addr, cellAt addr = some cell := by
  have hcell := cell.isLt
  have hat : ∀ n, n < 65536 → (UInt16.ofNat n).toNat = n := fun n hn => UInt16.toNat_ofNat_of_lt' hn
  by_cases hram : cell.val < 2048
  · refine ⟨UInt16.ofNat cell.val, cellAt_eq_some_iff.mpr ?_⟩
    rw [hat cell.val (by omega)]
    omega
  by_cases hpicture : cell.val < 2056
  · refine ⟨UInt16.ofNat (0x2000 + (cell.val - 2048)), cellAt_eq_some_iff.mpr ?_⟩
    rw [hat (0x2000 + (cell.val - 2048)) (by omega)]
    omega
  · refine ⟨UInt16.ofNat (0x4000 + (cell.val - 2056)), cellAt_eq_some_iff.mpr ?_⟩
    rw [hat (0x4000 + (cell.val - 2056)) (by omega)]
    omega

/-- The same cell is seen only within one range. -/
theorem zone_eq_of_cellAt {a b : UInt16} {cell : Fin 2080} (ha : cellAt a = some cell)
    (hb : cellAt b = some cell) : Zone.of a = Zone.of b := by
  have hcell := cell.isLt
  unfold Zone.of
  dsimp only
  rcases cellAt_eq_some_iff.mp ha with ⟨ha, hna⟩ | ⟨ha, ha', hna⟩ | ⟨ha, ha', hna⟩
  · have hb : b.toNat < 0x2000 := by
      rcases cellAt_eq_some_iff.mp hb with h | h | h <;> omega
    rw [if_pos ha, if_pos hb]
  · have hb : 0x2000 ≤ b.toNat ∧ b.toNat < 0x4000 := by
      rcases cellAt_eq_some_iff.mp hb with h | h | h <;> omega
    rw [if_neg (by omega), if_pos ha', if_neg (by omega), if_pos hb.2]
  · have hb : 0x4000 ≤ b.toNat ∧ b.toNat < 0x4018 := by
      rcases cellAt_eq_some_iff.mp hb with h | h | h <;> omega
    rw [if_neg (by omega), if_neg (by omega), if_pos ha', if_neg (by omega), if_neg (by omega),
      if_pos hb.2]

/-- The latest write to a cell is the latest write to its addresses, in the words of each range. -/
theorem shownBy_storeAfter (cartridge : Cartridge) (past : List Call) (addr : UInt16) :
    let n := addr.toNat
    shownBy (storeAfter (fun _ => 0) past) cartridge addr =
      if n < 0x2000 then
        (latest past fun b => b.toNat < 0x2000 ∧ b.toNat % 2048 = n % 2048).getD 0
      else if n < 0x4000 then
        (latest past fun b => 0x2000 ≤ b.toNat ∧ b.toNat < 0x4000 ∧ b.toNat % 8 = n % 8).getD 0
      else if n < 0x4018 then (latest past fun b => b = addr).getD 0
      else if n < 0x4020 then 0
      else cartridge.read addr := by
  intro n
  unfold shownBy
  cases hcell : cellAt addr with
  | none =>
    have hn : 0x4018 ≤ n := le_of_cellAt_eq_none hcell
    rw [if_neg (by omega : ¬ n < 0x2000), if_neg (by omega : ¬ n < 0x4000),
      if_neg (by omega : ¬ n < 0x4018)]
  | some cell =>
    show storeAfter (fun _ => 0) past cell = _
    rw [storeAfter_eq_latest]
    -- in each range the addresses of the cell are those of the same remainder
    rcases cellAt_eq_some_iff.mp hcell with ⟨hn, hnumber⟩ | ⟨hlow, hhigh, hnumber⟩ |
      ⟨hlow, hhigh, hnumber⟩
    · have hsame : (fun b => decide (cellAt b = some cell)) =
          fun b => decide (b.toNat < 0x2000 ∧ b.toNat % 2048 = n % 2048) := by
        funext b
        rw [decide_eq_decide, cellAt_eq_some_iff]
        omega
      rw [if_pos hn, hsame]
    · have hsame : (fun b => decide (cellAt b = some cell)) =
          fun b => decide (0x2000 ≤ b.toNat ∧ b.toNat < 0x4000 ∧ b.toNat % 8 = n % 8) := by
        funext b
        rw [decide_eq_decide, cellAt_eq_some_iff]
        omega
      rw [if_neg (Nat.not_lt.mpr hlow), if_pos hhigh, hsame]
    · have hsame : (fun b => decide (cellAt b = some cell)) = fun b => decide (b = addr) := by
        funext b
        rw [decide_eq_decide, cellAt_eq_some_iff, ← UInt16.toNat_inj]
        omega
      rw [if_neg (by omega : ¬ n < 0x2000), if_neg (Nat.not_lt.mpr hlow), if_pos hhigh, hsame]

/-- Writes to other ranges do not matter to what is seen at an address. -/
theorem shownBy_storeAfter_filter (cartridge : Cartridge) (past : List Call) (addr : UInt16) :
    shownBy (storeAfter (fun _ => 0) (past.filter fun call => Zone.of call.addr = Zone.of addr))
        cartridge addr =
      shownBy (storeAfter (fun _ => 0) past) cartridge addr := by
  unfold shownBy
  cases hcell : cellAt addr with
  | none => rfl
  | some cell =>
    show storeAfter _ _ cell = storeAfter _ _ cell
    rw [storeAfter_eq_latest, storeAfter_eq_latest]
    have hlatest : latest (past.filter fun call => Zone.of call.addr = Zone.of addr)
          (fun b => cellAt b = some cell) = latest past fun b => cellAt b = some cell := by
      induction past with
      | nil => rfl
      | cons call rest ih =>
        by_cases hzone : Zone.of call.addr = Zone.of addr
        · rw [List.filter_cons_of_pos (by simpa using hzone), latest_cons, latest_cons, ih]
        · -- a write to another range is none to the cell
          have hnone : call.written? (fun b => cellAt b = some cell) = none := by
            cases call with
            | read door b => rfl
            | write door b value =>
              have hother : ¬ cellAt b = some cell := fun hb =>
                hzone (zone_eq_of_cellAt hb hcell)
              simp [Call.written?, hother]
          rw [List.filter_cons_of_neg (by simpa using hzone), latest_cons, hnone, ih,
            Option.or_none]
    rw [hlatest]

/-- The answer to a read, by either way, is what the cells show. -/
theorem answer_after (cartridge : Cartridge) (past : List Call) (door : Door) (addr : UInt16) :
    ((MemoryMap.ofCartridge cartridge).after past).answer door addr =
      shownBy (storeAfter (fun _ => 0) past) cartridge addr := by
  obtain ⟨hholds, hcartridge⟩ := (Holds.ofCartridge cartridge).after past
  have hanswer := hholds addr
  rw [hcartridge] at hanswer
  cases door with
  | direct => exact hanswer
  | bus => exact hanswer

/-- **The memory map is a store of 2080 cells**, some of which are seen at many addresses.  After
    any calls on a new one, by either way, a read shows what was written last to the same cell of
    RAM, 2048 addresses apart, to the same register of the picture unit, 8 addresses apart, or to
    the same address of sound and input, and 0 if nothing was; behind these it shows zeros, and then
    the cartridge.  Only writes to the range of an address can be seen there. -/
theorem read_after_calls (cartridge : Cartridge) (past : List Call) (door : Door) (addr : UInt16) :
    let m := MemoryMap.ofCartridge cartridge
    let n := addr.toNat
    (m.after past).answer door addr =
        (if n < 0x2000 then
          (latest past fun b => b.toNat < 0x2000 ∧ b.toNat % 2048 = n % 2048).getD 0
        else if n < 0x4000 then
          (latest past fun b => 0x2000 ≤ b.toNat ∧ b.toNat < 0x4000 ∧ b.toNat % 8 = n % 8).getD 0
        else if n < 0x4018 then (latest past fun b => b = addr).getD 0
        else if n < 0x4020 then 0
        else cartridge.read addr) ∧
      (m.after (past.filter fun call => Zone.of call.addr = Zone.of addr)).answer door addr =
        (m.after past).answer door addr ∧
      (m.after past).answer door addr =
        shownBy (storeAfter (fun _ => 0) past) cartridge addr ∧
      ∀ cell : Fin 2080, ∃ b, cellAt b = some cell := by
  intro m n
  have hanswer := answer_after cartridge past door addr
  refine ⟨?_, ?_, hanswer, exists_cellAt⟩
  · rw [hanswer]
    exact shownBy_storeAfter cartridge past addr
  · rw [hanswer, answer_after]
    exact shownBy_storeAfter_filter cartridge past addr

end Nes.MemoryMap
