/-
  Transfer: what is seen on flat memory is what the console does.

  Instructions are easiest to watch on flat memory, and the console runs them on its memory map.  As
  long as a run on flat memory writes only to cells and reads no mirror, the two runs are the same:
  every step succeeds or fails alike, leaves the same registers, and makes the same accesses with
  the same values.  `Shadows` is the relation between the two memories that each step preserves
  (`attempt_of_shadows`), and an induction on the steps carries it through the run.
-/
import Nes.Proofs.Bus.Shadow
import Nes.Proofs.Cpu.Attempts
import Nes.Proofs.Cpu.Stepping

namespace Nes

/-! ## The flat copy of a memory map -/

/-- Flat memory with the byte that the memory map shows at each address. -/
def MemoryMap.flat (m : MemoryMap) : Ram := ⟨Vector.ofFn fun i => m.read (UInt16.ofNat i)⟩

@[simp] theorem MemoryMap.get_flat (m : MemoryMap) (addr : UInt16) :
    m.flat.get addr = m.read addr := by
  simp only [Ram.get, flat, Vector.getElem_ofFn, UInt16.ofNat_toNat]

namespace Cpu

/-- Every access of a step is one by which the two memories cannot be told apart. -/
def Attempt.Plain (attempt : Attempt) : Prop := ∀ access ∈ attempt.accesses, access.Plain

namespace Machine

variable {r : Registers} {ram : Ram} {m : MemoryMap}

/-! ## One step -/

/-- A step with plain accesses shows the same on both sides, and keeps the shadow. -/
theorem attempt_of_shadows (h : Shadows ram m) (tracing : Bool)
    (hplain : ((⟨r, ram⟩ : Machine Ram).attempt tracing).Plain) :
    (⟨r, m⟩ : Machine MemoryMap).attempt tracing = (⟨r, ram⟩ : Machine Ram).attempt tracing ∧
      ∃ r' ram' m', (⟨r, ram⟩ : Machine Ram).next tracing = ⟨r', ram'⟩ ∧
        (⟨r, m⟩ : Machine MemoryMap).next tracing = ⟨r', m'⟩ ∧ Shadows ram' m' := by
  obtain ⟨hanswer, haccesses, hshadows⟩ := h.perform (r.step tracing) hplain
  constructor
  · show Attempt.mk ((r.step tracing).perform m).answer ((r.step tracing).perform m).accesses = _
    rw [hanswer, haccesses]
    rfl
  · refine ⟨_, _, _, rfl, ?_, hshadows⟩
    show Machine.mk ((r.step tracing).perform m).answer.registers _ = _
    rw [hanswer]
    rfl

/-- The step of an instruction is plain if the cells it reads are no mirrors and those it writes are
    cells of the memory map. -/
theorem plain_attempt_of_decode? {i : Instruction} (tracing : Bool)
    (hdecode : Instruction.decode? (ram.get r.pc) = some i) (himplemented : i.isImplemented)
    (hreads : ∀ cell ∈ r.pc :: (r.traceCells tracing ram.get ++ i.reads ram.get r),
      ¬ MemoryMap.IsMirror cell)
    (hstores : ∀ s ∈ i.stores ram.get r, MemoryMap.IsCell s.1) :
    ((⟨r, ram⟩ : Machine Ram).attempt tracing).Plain := by
  have hstep := r.actsAs_step ram tracing hdecode himplemented
  intro access hmem
  rw [attempt, step, hstep.accesses_eq] at hmem
  rcases List.mem_append.mp hmem with hread | hstore
  · obtain ⟨cell, hcell, rfl⟩ := List.mem_map.mp hread
    exact hreads cell hcell
  · obtain ⟨s, hs, rfl⟩ := List.mem_map.mp hstore
    exact hstores s hs

/-- The machine after the step of an instruction. -/
theorem next_of_decode? {i : Instruction} (tracing : Bool)
    (hdecode : Instruction.decode? (ram.get r.pc) = some i) (himplemented : i.isImplemented) :
    (⟨r, ram⟩ : Machine Ram).next tracing =
      ⟨i.outcome ram.get r, Traffic.storeAll ram (i.stores ram.get r)⟩ := by
  have hstep := r.actsAs_step ram tracing hdecode himplemented
  rw [next, step, hstep.answer_eq, hstep.bus_eq]
  rfl

/-! ## Any number of steps -/

/-- A run with plain accesses shows the same on both sides. -/
theorem attempts_of_shadows (h : Shadows ram m) (traced : List Bool)
    (hplain : ∀ attempt ∈ (⟨r, ram⟩ : Machine Ram).attempts traced, attempt.Plain) :
    (⟨r, m⟩ : Machine MemoryMap).attempts traced = (⟨r, ram⟩ : Machine Ram).attempts traced := by
  induction traced generalizing r ram m with
  | nil => rfl
  | cons tracing rest ih =>
    have hfirst := hplain _ List.mem_cons_self
    obtain ⟨hattempt, r', ram', m', hram, hm, hshadows⟩ := attempt_of_shadows h tracing hfirst
    have hrest : ∀ attempt ∈ (⟨r', ram'⟩ : Machine Ram).attempts rest, attempt.Plain := by
      intro attempt hmem
      rw [← hram] at hmem
      exact hplain attempt (List.mem_cons_of_mem _ hmem)
    rw [attempts, attempts, hattempt, hm, hram, ih hshadows hrest]

/-- **A run on the memory map is the run on its flat copy**, as long as that run writes only to
    cells and reads no mirror: each step comes to the same cycles or the same failure, leaves the
    same registers, and makes the same accesses with the same values. -/
theorem attempts_eq_of_flat_copy (m : MemoryMap) (ram : Ram)
    (hcopy : ∀ addr, ram.get addr = m.read addr) (r : Registers) (traced : List Bool)
    (hplain : ∀ attempt ∈ (⟨r, ram⟩ : Machine Ram).attempts traced, attempt.Plain) :
    (⟨r, m⟩ : Machine MemoryMap).attempts traced = (⟨r, ram⟩ : Machine Ram).attempts traced := by
  have hshadows : Shadows ram m := fun addr _ => hcopy addr
  exact attempts_of_shadows hshadows traced hplain

/-- `STA $10` and then `LDA $10` from a cartridge: a store to a cell, and a read of it. -/
theorem attempts_eq_of_flat_copy_store_load :
    let header : Header := ⟨1, 1, 1, .horizontal, false, false, false, false, false, 0, .ntsc⟩
    let board : Nrom := ⟨⟨#[0x85, 0x10, 0xA5, 0x10]⟩, .horizontal, by decide⟩
    let m : MemoryMap := .ofCartridge ⟨header, ⟨#[]⟩, board⟩
    let r : Registers := { Registers.powerUp with a := 0x42, pc := 0x8000 }
    (⟨r, m⟩ : Machine MemoryMap).attempts [false, false] =
      (⟨r, m.flat⟩ : Machine Ram).attempts [false, false] := by
  intro header board m r
  have hprogram : m.flat.get 0x8000 = 0x85 ∧ m.flat.get 0x8001 = 0x10 ∧ m.flat.get 0x8002 = 0xA5 ∧
      m.flat.get 0x8003 = 0x10 := by
    simp only [MemoryMap.get_flat]
    exact ⟨rfl, rfl, rfl, rfl⟩
  refine attempts_eq_of_flat_copy m m.flat m.get_flat r [false, false] ?_
  -- what else the memory holds does not matter
  generalize m.flat = ram at hprogram
  obtain ⟨h0, h1, h2, h3⟩ := hprogram
  have hstore : Instruction.decode? (ram.get r.pc) = some ⟨.store .a, .zeroPage⟩ := by
    rw [show ram.get r.pc = 0x85 from h0]
    decide
  have hafter : (⟨r, ram⟩ : Machine Ram).next false =
      ⟨(⟨.store .a, .zeroPage⟩ : Instruction).outcome ram.get r,
        ram.set (ram.get 0x8001).toUInt16 0x42⟩ :=
    next_of_decode? false hstore rfl
  have hpc : ((⟨.store .a, .zeroPage⟩ : Instruction).outcome ram.get r).pc = 0x8002 := rfl
  generalize (⟨.store .a, .zeroPage⟩ : Instruction).outcome ram.get r = r' at hafter hpc
  have h2' : (ram.set (ram.get 0x8001).toUInt16 0x42).get 0x8002 = 0xA5 := by
    rw [h1, Ram.get_set, h2]
    rfl
  have h3' : (ram.set (ram.get 0x8001).toUInt16 0x42).get 0x8003 = 0x10 := by
    rw [h1, Ram.get_set, h3]
    rfl
  generalize ram.set (ram.get 0x8001).toUInt16 0x42 = ram' at hafter h2' h3'
  have hload : Instruction.decode? (ram'.get r'.pc) = some ⟨.load .a, .zeroPage⟩ := by
    rw [hpc, h2']
    decide
  rw [attempts, attempts, attempts, hafter]
  refine List.forall_mem_cons.mpr ⟨?_, List.forall_mem_cons.mpr ⟨?_, List.forall_mem_nil _⟩⟩
  · refine plain_attempt_of_decode? false hstore rfl ?_ ?_
    · show ∀ cell ∈ [(0x8000 : UInt16), 0x8001], ¬ MemoryMap.IsMirror cell
      simp only [List.forall_mem_cons]
      exact ⟨by decide, by decide, List.forall_mem_nil _⟩
    · show ∀ s ∈ [((ram.get 0x8001).toUInt16, (0x42 : UInt8))], MemoryMap.IsCell s.1
      rw [h1, List.forall_mem_cons]
      exact ⟨by decide, List.forall_mem_nil _⟩
  · refine plain_attempt_of_decode? false hload rfl ?_ (List.forall_mem_nil _)
    show ∀ cell ∈ [r'.pc, r'.pc + 1 + 0, (ram'.get (r'.pc + 1)).toUInt16],
      ¬ MemoryMap.IsMirror cell
    rw [hpc, show ram'.get (0x8002 + 1) = 0x10 from h3']
    simp only [List.forall_mem_cons]
    exact ⟨by decide, by decide, by decide, List.forall_mem_nil _⟩

end Machine

end Cpu

end Nes
