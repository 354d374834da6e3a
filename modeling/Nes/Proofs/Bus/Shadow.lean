/-
  Shadows: flat memory that shows what the memory map shows.

  1. **Cells and mirrors**: the memory map takes writes at the addresses of its cells (`IsCell`),
     and shows the same cells again at the mirrors (`IsMirror`).  Mirrors apart, each cell answers
     at one address only, its home (`regionOf_eq_iff`).
  2. **The relation**: flat memory shadows a memory map if the two show the same byte at every
     address that is no mirror (`Shadows`).  A write to a cell on both sides keeps this up
     (`Shadows.write`).
  3. **The simulation**: what writes only to cells and reads no mirror on flat memory answers the
     same on the memory map, by the same accesses, and leaves a shadow behind (`Shadows.perform`).

  Both conditions are needed.  Flat memory has a cell at every address, so it keeps a write that the
  memory map drops, and it does not show in a mirror what was written to the cell.
-/
import Nes.Bus.Ram
import Nes.Bus.Traffic
import Nes.MemoryMap

namespace Nes

/-! ## Cells and mirrors -/

namespace MemoryMap

/-- The addresses that take writes: RAM, the registers of the picture unit, sound and input. -/
def IsCell (addr : UInt16) : Prop :=
  addr ≤ 0x07FF ∨ (0x2000 ≤ addr ∧ addr ≤ 0x2007) ∨ (0x4000 ≤ addr ∧ addr ≤ 0x4017)

/-- The addresses at which RAM and the picture unit are seen again. -/
def IsMirror (addr : UInt16) : Prop :=
  (0x0800 ≤ addr ∧ addr ≤ 0x1FFF) ∨ (0x2008 ≤ addr ∧ addr ≤ 0x3FFF)

instance (addr : UInt16) : Decidable (IsCell addr) := inferInstanceAs (Decidable (_ ∨ _))

instance (addr : UInt16) : Decidable (IsMirror addr) := inferInstanceAs (Decidable (_ ∨ _))

theorem isCell_iff {addr : UInt16} :
    IsCell addr ↔ addr.toNat < 0x800 ∨ (0x2000 ≤ addr.toNat ∧ addr.toNat < 0x2008) ∨
      (0x4000 ≤ addr.toNat ∧ addr.toNat < 0x4018) := by
  simp only [IsCell, UInt16.le_iff_toNat_le, UInt16.reduceToNat]
  omega

theorem isMirror_iff {addr : UInt16} :
    IsMirror addr ↔ (0x800 ≤ addr.toNat ∧ addr.toNat < 0x2000) ∨
      (0x2008 ≤ addr.toNat ∧ addr.toNat < 0x4000) := by
  simp only [IsMirror, UInt16.le_iff_toNat_le, UInt16.reduceToNat]
  omega

/-- The first address at which a cell answers. -/
def home : Region → Option UInt16
  | .ram cell => some (UInt16.ofNat cell)
  | .picture register => some (UInt16.ofNat (0x2000 + register))
  | .io register => some (UInt16.ofNat (0x4000 + register))
  | .off | .cartridge => none

/-- An address that is no mirror is the home of whatever cell answers there. -/
theorem eq_of_home {addr first : UInt16} (hmirror : ¬ IsMirror addr)
    (hfirst : home (Region.of addr) = some first) : first = addr := by
  rw [isMirror_iff] at hmirror
  have hself : UInt16.ofNat addr.toNat = addr := UInt16.ofNat_toNat
  unfold Region.of at hfirst
  dsimp only at hfirst
  split at hfirst
  · obtain rfl := Option.some.inj hfirst
    have hcell : addr.toNat % 2048 = addr.toNat := by omega
    show UInt16.ofNat (addr.toNat % 2048) = addr
    rw [hcell, hself]
  split at hfirst
  · obtain rfl := Option.some.inj hfirst
    have hregister : 0x2000 + addr.toNat % 8 = addr.toNat := by omega
    show UInt16.ofNat (0x2000 + addr.toNat % 8) = addr
    rw [hregister, hself]
  split at hfirst
  · obtain rfl := Option.some.inj hfirst
    have hregister : 0x4000 + (addr.toNat - 0x4000) = addr.toNat := by omega
    show UInt16.ofNat (0x4000 + (addr.toNat - 0x4000)) = addr
    rw [hregister, hself]
  -- nothing in the rest of the map is a cell
  split at hfirst
  · exact nomatch hfirst
  · exact nomatch hfirst

/-- At the address of a cell, that cell answers. -/
theorem home_of_isCell {addr : UInt16} (h : IsCell addr) : home (Region.of addr) = some addr := by
  have hmirror : ¬ IsMirror addr := by
    rw [isCell_iff] at h
    rw [isMirror_iff]
    omega
  cases hhome : home (Region.of addr) with
  | some first => rw [eq_of_home hmirror hhome]
  | none =>
    exfalso
    rw [isCell_iff] at h
    unfold Region.of at hhome
    dsimp only at hhome
    split at hhome
    · exact nomatch hhome
    split at hhome
    · exact nomatch hhome
    split at hhome
    · exact nomatch hhome
    · omega

/-- Mirrors apart, what answers at the address of a cell answers nowhere else. -/
theorem regionOf_eq_iff {a b : UInt16} (ha : IsCell a) (hb : ¬ IsMirror b) :
    Region.of a = Region.of b ↔ a = b := by
  constructor
  · intro heq
    have hhome := home_of_isCell ha
    rw [heq] at hhome
    exact eq_of_home hb hhome
  · rintro rfl
    rfl

/-- Mirrors apart, a write to a cell shows at that address only. -/
theorem read_write_of_isCell (m : MemoryMap) {a b : UInt16} (ha : IsCell a) (hb : ¬ IsMirror b)
    (value : UInt8) : (m.write a value).read b = if a = b then value else m.read b := by
  have hhome := home_of_isCell ha
  have hoff : Region.of a ≠ .off := by
    intro h
    rw [h] at hhome
    exact nomatch hhome
  have hcartridge : Region.of a ≠ .cartridge := by
    intro h
    rw [h] at hhome
    exact nomatch hhome
  rw [read_write]
  simp only [regionOf_eq_iff ha hb, hoff, hcartridge, ne_eq, not_false_eq_true, and_true]

end MemoryMap

/-! ## Shadows -/

open MemoryMap (IsCell IsMirror)

/-- An access by which flat memory and the memory map cannot be told apart: a write to a cell, or a
    read of no mirror. -/
def Access.Plain : Access → Prop
  | .read addr _ => ¬ IsMirror addr
  | .write addr _ => IsCell addr

instance (access : Access) : Decidable access.Plain :=
  match access with
  | .read addr _ => inferInstanceAs (Decidable (¬ IsMirror addr))
  | .write addr _ => inferInstanceAs (Decidable (IsCell addr))

/-- Mirrors apart, flat memory shows what the memory map shows. -/
def Shadows (ram : Ram) (m : MemoryMap) : Prop :=
  ∀ addr, ¬ IsMirror addr → ram.get addr = m.read addr

namespace Shadows

variable {α : Type} {ram : Ram} {m : MemoryMap}

/-- Writing to a cell on both sides keeps the shadow. -/
theorem write (h : Shadows ram m) {addr : UInt16} (hcell : IsCell addr) (value : UInt8) :
    Shadows (ram.set addr value) (m.write addr value) := by
  intro b hb
  rw [Ram.get_set, MemoryMap.read_write_of_isCell m hcell hb, h b hb]

/-- **A computation whose accesses on flat memory are plain does the same on the memory map**: the
    answer and the accesses are equal, and the shadow stays one. -/
theorem perform (t : Traffic α) (h : Shadows ram m)
    (hplain : ∀ access ∈ (t.perform ram).accesses, access.Plain) :
    (t.perform m).answer = (t.perform ram).answer ∧
      (t.perform m).accesses = (t.perform ram).accesses ∧
      Shadows (t.perform ram).bus (t.perform m).bus := by
  induction t generalizing ram m with
  | done a => exact ⟨rfl, rfl, h⟩
  | read addr next ih =>
    have hread : (Access.read addr (ram.get addr)).Plain := hplain _ List.mem_cons_self
    have hrest : ∀ access ∈ ((next (ram.get addr)).perform ram).accesses, access.Plain :=
      fun access hmem => hplain access (List.mem_cons_of_mem _ hmem)
    obtain ⟨hanswer, haccesses, hshadows⟩ := ih (ram.get addr) h hrest
    -- the memory map answers with the same byte, so both go on in the same way
    have hvalue : ram.get addr = m.read addr := h addr hread
    have hstep : (Traffic.read addr next).perform m =
        { (next (ram.get addr)).perform m with
          accesses := .read addr (ram.get addr) :: ((next (ram.get addr)).perform m).accesses
          records := (MemoryMap.readNote addr).toList ++
            ((next (ram.get addr)).perform m).records } := by
      rw [hvalue]
      rfl
    rw [hstep]
    exact ⟨hanswer, congrArg (Access.read addr (ram.get addr) :: ·) haccesses, hshadows⟩
  | write addr value next ih =>
    have hwrite : (Access.write addr value).Plain := hplain _ List.mem_cons_self
    have hrest : ∀ access ∈ (next.perform (ram.set addr value)).accesses, access.Plain :=
      fun access hmem => hplain access (List.mem_cons_of_mem _ hmem)
    obtain ⟨hanswer, haccesses, hshadows⟩ := ih (h.write hwrite value) hrest
    exact ⟨hanswer, congrArg (Access.write addr value :: ·) haccesses, hshadows⟩
  | report record next ih => exact ih h hplain

end Shadows

end Nes
