/-
  Subroutines: nested calls and their returns, down to where the stack page is full.

  1. **Programs**: bytes that stand in memory apart from the stack (`StandsAt`), and from them a
     nest of subroutines, each of which calls the next one and returns (`Nest`).
  2. **One instruction**: JSR leaves the address of its own last byte on the stack, high byte first
     (`Reaches.call`); RTS takes it from there and goes to the byte behind it (`Reaches.return`).
  3. **One level**: a call, whatever happens within `n` levels below, and the return
     (`RoundTrip.call`).  The levels below write under the return address as long as there are
     fewer than 128 of them.
  4. **Every level**: by induction on the levels that are left the nest is gone through and left
     (`nested_calls_unwind`).
-/
import Nes.Proofs.Cpu.Reaching
import Nes.Proofs.Cpu.Stack

namespace Nes.Cpu

/-! ## Programs -/

/-- The given bytes stand in memory from an address on, and none of them on the stack page. -/
structure StandsAt (ram : Ram) (addr : UInt16) (bytes : List UInt8) : Prop where
  bytes_eq : (cellsFrom addr bytes.length).map ram.get = bytes
  off_stack : ∀ cell ∈ cellsFrom addr bytes.length, ¬ (0x0100 ≤ cell ∧ cell ≤ 0x01FF)

/-- The bytes of `JSR target`. -/
def callBytes (target : UInt16) : List UInt8 := [0x20, lowByte target, highByte target]

/-- The byte of `RTS`. -/
def returnBytes : List UInt8 := [0x60]

/-- Subroutines at `p 0`, ..., `p depth`, each of which calls the next one and returns behind the
    call; the innermost returns at once, and what comes behind the outermost call is left open. -/
structure Nest (ram : Ram) (p : Nat → UInt16) (depth : Nat) : Prop where
  calls : ∀ i < depth, StandsAt ram (p i) (callBytes (p (i + 1)))
  innermost : StandsAt ram (p depth) returnBytes
  returns : ∀ i, 1 ≤ i → i < depth → StandsAt ram (p i + 3) returnBytes

namespace StandsAt

variable {ram ram' : Ram} {addr : UInt16} {byte : UInt8} {bytes rest : List UInt8}

/-- The cells on which a program stands, one by one. -/
theorem of_cells {cells : List UInt16} (hcells : cellsFrom addr bytes.length = cells)
    (hbytes : cells.map ram.get = bytes)
    (hoff : ∀ cell ∈ cells, ¬ (0x0100 ≤ cell ∧ cell ≤ 0x01FF)) : StandsAt ram addr bytes := by
  subst hcells
  exact ⟨hbytes, hoff⟩

theorem head (h : StandsAt ram addr (byte :: rest)) : ram.get addr = byte := by
  have hbytes := h.bytes_eq
  rw [List.length_cons, cellsFrom_succ] at hbytes
  exact (List.cons.inj hbytes).1

theorem tail (h : StandsAt ram addr (byte :: rest)) : StandsAt ram (addr + 1) rest := by
  have hbytes := h.bytes_eq
  have hcells := h.off_stack
  rw [List.length_cons, cellsFrom_succ] at hbytes hcells
  exact ⟨(List.cons.inj hbytes).2, fun cell hcell => hcells cell (List.mem_cons_of_mem addr hcell)⟩

/-- A program stands in every memory that differs on the stack only. -/
theorem congr (h : StandsAt ram addr bytes)
    (hsame : ∀ cell, ¬ (0x0100 ≤ cell ∧ cell ≤ 0x01FF) → ram'.get cell = ram.get cell) :
    StandsAt ram' addr bytes where
  bytes_eq := by
    refine (List.map_congr_left fun cell hcell => ?_).trans h.bytes_eq
    exact hsame cell (h.off_stack cell hcell)
  off_stack := h.off_stack

end StandsAt

/-- A nest stands in every memory that differs on the stack only. -/
theorem Nest.congr {ram ram' : Ram} {p : Nat → UInt16} {depth : Nat} (h : Nest ram p depth)
    (hsame : ∀ cell, ¬ (0x0100 ≤ cell ∧ cell ≤ 0x01FF) → ram'.get cell = ram.get cell) :
    Nest ram' p depth where
  calls i hi := (h.calls i hi).congr hsame
  innermost := h.innermost.congr hsame
  returns i hpos hi := (h.returns i hpos hi).congr hsame

/-- An RTS stands where the level `i` is left: behind its call, or, where there is none, at its
    start. -/
theorem Nest.returnAt {ram : Ram} {p : Nat → UInt16} {depth : Nat} (h : Nest ram p depth) {i : Nat}
    (hpos : 1 ≤ i) (hi : i ≤ depth) :
    StandsAt ram (if i = depth then p depth else p i + 3) returnBytes := by
  split
  · exact h.innermost
  · exact h.returns i hpos (by omega)

/-- Cells apart from the stack are out of reach of what is pushed. -/
theorem get_push_push (ram : Ram) (sp sp' v v' : UInt8) {cell : UInt16}
    (hnot : ¬ (0x0100 ≤ cell ∧ cell ≤ 0x01FF)) :
    ((ram.set (stackAddress sp) v).set (stackAddress sp') v').get cell = ram.get cell := by
  have hpushed := stackPage_ram.peek_write_of_not (ram.set (stackAddress sp) v) sp' v' cell hnot
  exact hpushed.trans (stackPage_ram.peek_write_of_not ram sp v cell hnot)

namespace Machine

variable {tracing : Bool} {n : Nat} {r : Registers} {ram : Ram}

/-! ## One instruction -/

/-- **JSR** pushes the address of its last byte and goes to its target. -/
theorem Reaches.call (tracing : Bool) {target : UInt16} (h : StandsAt ram r.pc (callBytes target)) :
    Reaches tracing 1 ⟨r, ram⟩
      ⟨{ r with pc := target, sp := r.sp - 2, stepCycles := 6, cycles := r.cycles + 6 },
        (ram.set (stackAddress r.sp) (highByte (r.pc + 2))).set (stackAddress (r.sp - 1))
          (lowByte (r.pc + 2))⟩ := by
  have hopcode : ram.get r.pc = 0x20 := h.head
  have hlow : ram.get (r.pc + 1) = lowByte target := h.tail.head
  have hhigh : ram.get (r.pc + 2) = highByte target := by
    have hthird : r.pc + 1 + 1 = r.pc + 2 := UInt16.add_assoc r.pc 1 1
    rw [← hthird]
    exact h.tail.tail.head
  let i : Instruction := ⟨.callSubroutine, .absolute⟩
  have hdecode : Instruction.decode? (Bus.peek ram r.pc) = some i := by
    rw [Bus.peek_ram, hopcode]
    decide
  have htarget : Mode.wordAt ram.get r = target := by
    rw [Mode.wordAt, hlow, hhigh, word_lowByte_highByte]
  have hback : r.pc + UInt16.ofNat i.size - 1 = r.pc + 2 := by
    show r.pc + 3 - 1 = r.pc + 2
    grind
  have hreaches := Reaches.of_decode? tracing hdecode rfl
  have houtcome : i.outcome (Bus.peek ram) r =
      { r with pc := target, sp := r.sp - 2, stepCycles := 6, cycles := r.cycles + 6 } := by
    rw [← htarget]
    rfl
  have hstores : i.stores (Bus.peek ram) r =
      [(stackAddress r.sp, highByte (r.pc + 2)),
        (stackAddress (r.sp - 1), lowByte (r.pc + 2))] := by
    rw [← hback]
    rfl
  rw [houtcome, hstores] at hreaches
  exact hreaches

/-- **RTS** pulls an address and goes to the byte behind it. -/
theorem Reaches.return (tracing : Bool) (h : StandsAt ram r.pc returnBytes) :
    Reaches tracing 1 ⟨r, ram⟩
      ⟨{ r with
          pc := word (ram.get (stackAddress (r.sp + 1))) (ram.get (stackAddress (r.sp + 2))) + 1
          sp := r.sp + 2
          stepCycles := 6
          cycles := r.cycles + 6 }, ram⟩ := by
  have hdecode : Instruction.decode? (Bus.peek ram r.pc) =
      some ⟨.returnFromSubroutine, .implied⟩ := by
    rw [Bus.peek_ram, h.head]
    decide
  exact Reaches.of_decode? tracing hdecode rfl

/-! ## One level -/

/-- Within `n` levels of calls, `m` goes down to `mid`, which stands at `bottom`, and back up to
    `last`, which stands at `back`. -/
structure RoundTrip (tracing : Bool) (n : Nat) (bottom back : UInt16) (m mid last : Machine Ram) :
    Prop where
  down : Reaches tracing n m mid
  up : Reaches tracing n mid last
  mid_pc : mid.registers.pc = bottom
  mid_sp : mid.registers.sp = m.registers.sp - UInt8.ofNat (2 * n)
  last_registers : ∃ spent, last.registers =
    { m.registers with
      pc := back
      stepCycles := spent
      cycles := m.registers.cycles + UInt64.ofNat (12 * n) }
  last_memory : ∀ addr, (∀ j < 2 * n, addr ≠ stackAddress (m.registers.sp - UInt8.ofNat j)) →
    last.bus.get addr = m.bus.get addr

/-- Without calls nothing happens. -/
theorem RoundTrip.here (tracing : Bool) (m : Machine Ram) :
    RoundTrip tracing 0 m.registers.pc m.registers.pc m m m where
  down := .here m
  up := .here m
  mid_pc := rfl
  mid_sp := (UInt8.sub_zero m.registers.sp).symm
  last_registers := by
    refine ⟨m.registers.stepCycles, ?_⟩
    show m.registers = { m.registers with cycles := m.registers.cycles + 0 }
    rw [UInt64.add_zero]
  last_memory _ _ := rfl

/-- Of 256 stack cells, those below the two topmost are others than these two. -/
theorem stackAddress_ne_below {sp : UInt8} {k j : Nat} (hk : k < 2) (hj : j < 254) :
    stackAddress (sp - UInt8.ofNat k) ≠ stackAddress (sp - 2 - UInt8.ofNat j) := by
  have hsp := sp.toNat_lt
  rw [ne_eq, stackAddress_inj, ← UInt8.toNat_inj]
  simp only [UInt8.toNat_sub, UInt8.toNat_ofNat', UInt8.reduceToNat]
  omega

/-- **One level more**: a call, the levels below it, and the return to the byte behind the call. -/
theorem RoundTrip.call {target bottom back : UInt16} {mid last : Machine Ram}
    (hcall : StandsAt ram r.pc (callBytes target)) (hn : n < 128)
    (hreturn : StandsAt ram back returnBytes)
    (hbelow : RoundTrip tracing n bottom back
      ⟨{ r with pc := target, sp := r.sp - 2, stepCycles := 6, cycles := r.cycles + 6 },
        (ram.set (stackAddress r.sp) (highByte (r.pc + 2))).set (stackAddress (r.sp - 1))
          (lowByte (r.pc + 2))⟩ mid last) :
    ∃ last', RoundTrip tracing (n + 1) bottom (r.pc + 3) ⟨r, ram⟩ mid last' := by
  obtain ⟨q, later⟩ := last
  obtain ⟨spent, hq⟩ := hbelow.last_registers
  have hmemory := hbelow.last_memory
  dsimp only at hq hmemory
  have hsp : q.sp = r.sp - 2 := congrArg Registers.sp hq
  -- the program is out of reach of the stack
  have hstands : StandsAt later q.pc returnBytes := by
    have hpc : q.pc = back := congrArg Registers.pc hq
    rw [hpc]
    refine hreturn.congr fun cell hnot => ?_
    have hoff : ∀ j < 2 * n, cell ≠ stackAddress (r.sp - 2 - UInt8.ofNat j) := by
      rintro j - rfl
      exact hnot (stackAddress_mem _)
    rw [hmemory cell hoff, get_push_push ram _ _ _ _ hnot]
  -- and the return address is out of reach of the levels below
  have hlow : later.get (stackAddress (q.sp + 1)) = lowByte (r.pc + 2) := by
    have hcell : q.sp + 1 = r.sp - UInt8.ofNat 1 := by
      rw [hsp]
      show r.sp - 2 + 1 = r.sp - 1
      grind
    rw [hcell, hmemory _ fun j hj => stackAddress_ne_below (by omega) (by omega), Ram.get_set]
    exact if_pos rfl
  have hhigh : later.get (stackAddress (q.sp + 2)) = highByte (r.pc + 2) := by
    have hcell : q.sp + 2 = r.sp - UInt8.ofNat 0 := by
      rw [hsp]
      show r.sp - 2 + 2 = r.sp - 0
      grind
    have hother : stackAddress (r.sp - 1) ≠ stackAddress r.sp := by
      rw [ne_eq, stackAddress_inj]
      grind
    rw [hcell, hmemory _ fun j hj => stackAddress_ne_below (by omega) (by omega)]
    show ((ram.set _ _).set _ _).get (stackAddress (r.sp - 0)) = _
    rw [UInt8.sub_zero, Ram.get_set, if_neg hother, Ram.get_set, if_pos rfl]
  have hreturned := Reaches.return tracing hstands
  rw [hlow, hhigh, word_lowByte_highByte, hsp] at hreturned
  refine ⟨_, ?_, hbelow.up.trans hreturned, hbelow.mid_pc, ?_, ?_, ?_⟩
  · have hdown := (Reaches.call tracing hcall).trans hbelow.down
    rwa [Nat.add_comm] at hdown
  · rw [hbelow.mid_sp]
    show r.sp - 2 - UInt8.ofNat (2 * n) = r.sp - UInt8.ofNat (2 * n + 2)
    rw [UInt8.ofNat_add]
    grind
  · refine ⟨6, ?_⟩
    have hback : r.pc + 2 + 1 = r.pc + 3 := UInt16.add_assoc r.pc 2 1
    have hfree : r.sp - 2 + 2 = r.sp := UInt8.sub_add_cancel r.sp 2
    have hspent : r.cycles + 6 + UInt64.ofNat (12 * n) + 6 =
        r.cycles + UInt64.ofNat (12 * (n + 1)) := by
      rw [Nat.mul_succ, UInt64.ofNat_add]
      grind
    rw [hq, hback, hfree, ← hspent]
  · intro addr hnot
    have htop : addr ≠ stackAddress r.sp := by
      have h := hnot 0 (by omega)
      rwa [show r.sp - UInt8.ofNat 0 = r.sp from UInt8.sub_zero r.sp] at h
    have hnext : addr ≠ stackAddress (r.sp - 1) := hnot 1 (by omega)
    have hbelow : ∀ j < 2 * n, addr ≠ stackAddress (r.sp - 2 - UInt8.ofNat j) := by
      intro j hj
      have h := hnot (j + 2) (by omega)
      have hcell : r.sp - UInt8.ofNat (j + 2) = r.sp - 2 - UInt8.ofNat j := by
        rw [UInt8.ofNat_add]
        grind
      rwa [hcell] at h
    rw [hmemory addr hbelow, Ram.get_set, Ram.get_set, if_neg hnext.symm, if_neg htop.symm]

/-! ## Every level -/

variable {p : Nat → UInt16} {depth : Nat}

/-- **Every level**: with `n` levels left at `p i`, the nest is gone through, and left behind the
    call at `p i` or, where there is none, at the innermost RTS. -/
theorem exists_roundTrip (tracing : Bool) (h : Nest ram p depth) {i : Nat} (hlevels : i + n = depth)
    (hn : n ≤ 128) (hpc : r.pc = p i) :
    ∃ mid last,
      RoundTrip tracing n (p depth) (if i = depth then p depth else p i + 3) ⟨r, ram⟩ mid last := by
  induction n generalizing i r ram with
  | zero =>
    have hinnermost : i = depth := hlevels
    have hhere := RoundTrip.here tracing (⟨r, ram⟩ : Machine Ram)
    rw [if_pos hinnermost, ← hinnermost, ← hpc]
    exact ⟨_, _, hhere⟩
  | succ n ih =>
    have hi : i < depth := by omega
    have hcall : StandsAt ram r.pc (callBytes (p (i + 1))) := hpc ▸ h.calls i hi
    -- what the call pushes leaves the nest as it is
    have hcalled := h.congr fun cell hnot => get_push_push ram r.sp (r.sp - 1)
      (highByte (r.pc + 2)) (lowByte (r.pc + 2)) hnot
    obtain ⟨mid, last, hbelow⟩ := ih (r := { r with
      pc := p (i + 1), sp := r.sp - 2, stepCycles := 6, cycles := r.cycles + 6 }) hcalled
      (by omega) (by omega) rfl
    have hreturn := h.returnAt (i := i + 1) (by omega) hi
    obtain ⟨last', htrip⟩ := RoundTrip.call hcall hn hreturn hbelow
    rw [if_neg (Nat.ne_of_lt hi), ← hpc]
    exact ⟨mid, last', htrip⟩

/-- **Nested calls unwind**, down to 128 of them.  From the outermost of `depth` calls, with any
    other registers, `depth` steps lead to the innermost RTS with SP lower by two for each, and
    as many more steps lead behind the outermost call, with every register but PC as it was, twelve
    cycles on for each level; nothing has changed in memory but the `2 * depth` stack cells from SP
    down. -/
theorem nested_calls_unwind (tracing : Bool) (hpos : 1 ≤ depth) (hdepth : depth ≤ 128)
    (hnest : Nest ram p depth) (hpc : r.pc = p 0) :
    let down := run tracing depth (⟨r, ram⟩ : Machine Ram)
    let whole := run tracing (2 * depth) (⟨r, ram⟩ : Machine Ram)
    (down.failure = none ∧ down.states.length = depth ∧ down.machine.registers.pc = p depth ∧
      down.machine.registers.sp = r.sp - UInt8.ofNat (2 * depth)) ∧
    (whole.failure = none ∧ whole.states.length = 2 * depth ∧
      ∃ spent, whole.machine.registers =
        { r with
          pc := p 0 + 3
          stepCycles := spent
          cycles := r.cycles + UInt64.ofNat (12 * depth) }) ∧
    ∀ addr, (∀ j < 2 * depth, addr ≠ stackCell (r.sp - UInt8.ofNat j)) →
      whole.machine.bus.get addr = ram.get addr := by
  intro down whole
  obtain ⟨mid, last, htrip⟩ := exists_roundTrip tracing hnest (Nat.zero_add depth) hdepth hpc
  rw [if_neg (Nat.ne_of_lt hpos)] at htrip
  obtain ⟨hdown, hdownLength, hmid⟩ := htrip.down.run_eq
  have hboth := htrip.down.trans htrip.up
  rw [← Nat.two_mul] at hboth
  obtain ⟨hwhole, hwholeLength, hlast⟩ := hboth.run_eq
  refine ⟨⟨hdown, hdownLength, ?_, ?_⟩, ⟨hwhole, hwholeLength, ?_⟩, ?_⟩
  · exact hmid ▸ htrip.mid_pc
  · exact hmid ▸ htrip.mid_sp
  · exact hlast ▸ htrip.last_registers
  · intro addr hnot
    simp only [← stackAddress_eq_stackCell] at hnot
    exact hlast ▸ htrip.last_memory addr hnot

/-- Two levels, from a call whose bytes lie on both sides of the end of memory: SP passes below the
    stack page and comes back. -/
theorem nested_calls_unwind_around_memory :
    let ram : Ram := Traffic.storeAll (.ofBytes ⟨#[]⟩)
      [(0xFFFE, 0x20), (0xFFFF, 0x00), (0x0000, 0x03),
        (0x0300, 0x20), (0x0301, 0x00), (0x0302, 0x04), (0x0303, 0x60), (0x0400, 0x60)]
    let r : Registers := { Registers.powerUp with pc := 0xFFFE, sp := 0x01 }
    let down := run false 2 (⟨r, ram⟩ : Machine Ram)
    let whole := run false 4 (⟨r, ram⟩ : Machine Ram)
    down.machine.registers.pc = 0x0400 ∧ down.machine.registers.sp = 0xFD ∧
      whole.failure = none ∧ whole.machine.registers.pc = 0x0001 ∧
      whole.machine.registers.sp = 0x01 ∧ whole.machine.registers.cycles = 24 := by
  intro ram r down whole
  have hbytes : ram.get 0xFFFE = 0x20 ∧ ram.get 0xFFFF = 0x00 ∧ ram.get 0x0000 = 0x03 ∧
      ram.get 0x0300 = 0x20 ∧ ram.get 0x0301 = 0x00 ∧ ram.get 0x0302 = 0x04 ∧
      ram.get 0x0303 = 0x60 ∧ ram.get 0x0400 = 0x60 := by
    simp only [ram, Traffic.storeAll, List.foldl_cons, List.foldl_nil, Bus.write, Ram.get_set]
    decide
  -- what else the memory holds does not matter
  clear_value ram
  obtain ⟨h0, h1, h2, h3, h4, h5, h6, h7⟩ := hbytes
  let p : Nat → UInt16
    | 0 => 0xFFFE
    | 1 => 0x0300
    | _ => 0x0400
  have hnest : Nest ram p 2 := by
    refine ⟨?_, ?_, ?_⟩
    · intro i hi
      match i, hi with
      | 0, _ =>
        have hcells : cellsFrom 0xFFFE 3 = [0xFFFE, 0xFFFF, 0x0000] := by decide
        refine .of_cells hcells ?_ ?_
        · rw [List.map_cons, List.map_cons, List.map_cons, List.map_nil, h0, h1, h2]
          decide
        · simp only [List.forall_mem_cons]
          exact ⟨by decide, by decide, by decide, List.forall_mem_nil _⟩
      | 1, _ =>
        have hcells : cellsFrom 0x0300 3 = [0x0300, 0x0301, 0x0302] := by decide
        refine .of_cells hcells ?_ ?_
        · rw [List.map_cons, List.map_cons, List.map_cons, List.map_nil, h3, h4, h5]
          decide
        · simp only [List.forall_mem_cons]
          exact ⟨by decide, by decide, by decide, List.forall_mem_nil _⟩
    · have hcells : cellsFrom 0x0400 1 = [0x0400] := by decide
      exact .of_cells hcells (congrArg ([·]) h7) (List.forall_mem_singleton.mpr (by decide))
    · intro i hpos hi
      obtain rfl : i = 1 := by omega
      have hcells : cellsFrom 0x0303 1 = [0x0303] := by decide
      exact .of_cells hcells (congrArg ([·]) h6) (List.forall_mem_singleton.mpr (by decide))
  obtain ⟨⟨-, -, hpc, hsp⟩, ⟨hfailure, -, spent, hregisters⟩, -⟩ :=
    nested_calls_unwind false (by decide) (by decide) hnest (r := r) rfl
  have hbehind : (0xFFFE : UInt16) + 3 = 0x0001 := by decide
  have hwhole : whole.machine.registers =
      { r with pc := 0xFFFE + 3, stepCycles := spent, cycles := 24 } := hregisters
  refine ⟨hpc, hsp, hfailure, ?_⟩
  rw [hwhole, hbehind]
  exact ⟨rfl, rfl, rfl⟩

end Machine

end Nes.Cpu
