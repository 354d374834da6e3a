/-
  Loops: a register counts down, and a branch leads back until it shows zero.

  The loop is `LDX #n`, `DEX`, `BNE` back to the DEX, at any address.  DEX comes before the test, so
  that from 0 the register counts once around, and the loop is gone through 256 times.

  1. **Code and count**: the five bytes (`loopCode`), how often the loop is gone through (`rounds`),
     and what the register shows on the way (`toNat_countdown`).
  2. **One instruction**: all that the loop changes is PC, X, the flags that tell of X, and the
     cycles; `Registers.counting` are such registers.
  3. **One round** is a DEX and a BNE: where X is not zero behind the DEX, the round is closed
     (`Reaches.round`).  By induction on the rounds, that is how the DEX is reached again and again
     (`Reaches.exists_top`).
  4. **Every round**: after the last DEX the BNE leaves the loop, and not before
     (`counted_loop`).
-/
import Nes.Proofs.Cpu.Branches
import Nes.Proofs.Cpu.Chains

namespace Nes.Cpu

/-! ## Code and count -/

/-- The code of the loop: `LDX #n`, `DEX` and `BNE` back to the DEX. -/
def loopCode (n : UInt8) : List UInt8 := [0xA2, n, 0xCA, 0xD0, 0xFD]

/-- How many times a register that shows `n` counts down until it shows zero. -/
def rounds (n : UInt8) : Nat := if n = 0 then 256 else n.toNat

theorem rounds_pos (n : UInt8) : 0 < rounds n := by
  rw [rounds]
  split
  · omega
  · rename_i hn
    have hne : n.toNat ≠ 0 := fun h => hn (UInt8.toNat_inj.mp h)
    omega

/-- What the register shows when it has counted `i` times. -/
theorem toNat_countdown {n : UInt8} {i : Nat} (hi : i ≤ rounds n) :
    (n - UInt8.ofNat i).toNat = (rounds n - i) % 256 := by
  have hn := n.toNat_lt
  rw [UInt8.toNat_sub, UInt8.toNat_ofNat']
  rw [rounds] at hi ⊢
  split at hi
  · rename_i hzero
    rw [if_pos hzero, hzero]
    show (256 - i % 256 + 0) % 256 = _
    omega
  · rename_i hne
    rw [if_neg hne]
    omega

/-- Counting once more. -/
theorem countdown_succ (n : UInt8) (i : Nat) :
    n - UInt8.ofNat i - 1 = n - UInt8.ofNat (i + 1) := by
  rw [UInt8.ofNat_add]
  grind

/-- The register shows zero when it has counted as often as it takes, and not before. -/
theorem countdown_eq_zero_iff {n : UInt8} {i : Nat} (hpos : 0 < i) (hi : i ≤ rounds n) :
    n - UInt8.ofNat i = 0 ↔ i = rounds n := by
  have hn := n.toNat_lt
  have hcount := toNat_countdown hi
  have hle : rounds n ≤ 256 := by
    rw [rounds]
    split <;> omega
  rw [← UInt8.toNat_inj, hcount]
  show (rounds n - i) % 256 = 0 ↔ _
  omega

/-! ## One instruction -/

/-- Of two bytes that zero and negative are made to tell of the first leaves no trace. -/
theorem Status.putNZ_putNZ (p : Status) (v w : UInt8) : (p.putNZ v).putNZ w = p.putNZ w := by
  refine ext_get fun f => ?_
  rw [get_putNZ, get_putNZ, get_putNZ]
  split
  · rfl
  · split
    · rfl
    · rfl

/-- The registers in the loop: PC and X, the cycles of the last instruction and of all so far. -/
def Registers.counting (r : Registers) (pc : UInt16) (x spent : UInt8) (total : Nat) : Registers :=
  { r with
    pc := pc
    x := x
    status := r.status.putNZ x
    stepCycles := spent
    cycles := r.cycles + UInt64.ofNat total }

/-- Cycles are added up one instruction at a time. -/
theorem add_spent (cycles : UInt64) (total : Nat) (spent : UInt8) :
    cycles + UInt64.ofNat total + spent.toUInt64 =
      cycles + UInt64.ofNat (total + spent.toNat) := by
  have hspent : spent.toUInt64 = UInt64.ofNat spent.toNat := (UInt64.ofNat_uInt8ToNat spent).symm
  rw [hspent, UInt64.ofNat_add, ← UInt64.add_assoc]

/-- In the loop an instruction that goes on to `pc` and does nothing else is added to the sum. -/
theorem Registers.goOn_counting (r : Registers) (pc pc' : UInt16) (x spent cost : UInt8)
    (total : Nat) :
    (r.counting pc x spent total).goOn pc' cost =
      r.counting pc' x cost (total + cost.toNat) := by
  show ({ r.counting pc' x cost total with
    cycles := r.cycles + UInt64.ofNat total + cost.toUInt64 } : Registers) = _
  rw [add_spent]
  rfl

/-- In the loop zero tells of X. -/
theorem Registers.zero_counting (r : Registers) (pc : UInt16) (x spent : UInt8) (total : Nat) :
    (r.counting pc x spent total).status.get .zero = true ↔ x = 0 :=
  (Status.putNZ_tellsOf r.status x).1

namespace Machine

variable {tracing : Bool} {ram : Ram} {r : Registers}

/-- An instruction that stores nothing leads to its outcome. -/
theorem Reaches.of_outcome {opcode : UInt8} {i : Instruction} {q : Registers} (tracing : Bool)
    (hopcode : ram.get r.pc = opcode) (hdecode : Instruction.decode? opcode = some i)
    (himplemented : i.isImplemented) (hstores : i.stores ram.get r = [])
    (hq : i.outcome ram.get r = q) : Reaches tracing 1 ⟨r, ram⟩ ⟨q, ram⟩ := by
  have hdecode' : Instruction.decode? (Bus.peek ram r.pc) = some i := by
    rw [Bus.peek_ram, hopcode]
    exact hdecode
  have hreaches := Reaches.of_decode? tracing hdecode' himplemented
  rw [Bus.peek_ram, hstores, hq] at hreaches
  exact hreaches

/-- **LDX** starts the count. -/
theorem Reaches.load {n : UInt8} (tracing : Bool) (hopcode : ram.get r.pc = 0xA2)
    (hn : ram.get (r.pc + 1) = n) :
    Reaches tracing 1 ⟨r, ram⟩ ⟨r.counting (r.pc + 2) n 2 2, ram⟩ := by
  have hloaded : (Instruction.mk (.load .x) .immediate).outcome ram.get r =
      r.counting (r.pc + 2) n 2 2 := by
    rw [← hn]
    rfl
  exact Reaches.of_outcome tracing hopcode (by decide) rfl rfl hloaded

variable {pc : UInt16} {x spent : UInt8} {total : Nat}

/-- **DEX** counts. -/
theorem Reaches.count (tracing : Bool) (hopcode : ram.get pc = 0xCA) :
    Reaches tracing 1 ⟨r.counting pc x spent total, ram⟩
      ⟨r.counting (pc + 1) (x - 1) 2 (total + 2), ram⟩ := by
  have hcounted : (Instruction.mk (.count .x .down) .implied).outcome ram.get
      (r.counting pc x spent total) =
        { r with
          pc := pc + 1
          x := x - 1
          status := (r.status.putNZ x).putNZ (x - 1)
          stepCycles := 2
          cycles := r.cycles + UInt64.ofNat total + (2 : UInt8).toUInt64 } := rfl
  rw [Status.putNZ_putNZ, add_spent] at hcounted
  exact Reaches.of_outcome tracing hopcode (by decide) rfl rfl hcounted

/-- **BNE** goes back by one byte where X is not zero. -/
theorem Reaches.again (tracing : Bool) (hopcode : ram.get pc = 0xD0)
    (hdistance : ram.get (pc + 1) = 0xFD) (hx : x ≠ 0) :
    let cost := takenCost pc (pc - 1)
    Reaches tracing 1 ⟨r.counting pc x spent total, ram⟩
      ⟨r.counting (pc - 1) x cost (total + cost.toNat), ram⟩ := by
  intro cost
  have hshown : (r.counting pc x spent total).status.get Condition.zero.flag = false :=
    Bool.eq_false_iff.mpr (mt (r.zero_counting pc x spent total).mp hx)
  have htarget : branchTarget pc 0xFD = pc - 1 := by
    have hback : signExtend (0xFD : UInt8).toInt8 = 0xFFFD := by decide
    rw [branchTarget, hback]
    grind
  have htaken := outcome_of_taken ram.get (r.counting pc x spent total) hshown
  have hpc : (r.counting pc x spent total).pc = pc := rfl
  simp only [hpc, hdistance, htarget, Registers.goOn_counting] at htaken
  exact Reaches.of_outcome tracing hopcode (by decide) rfl rfl htaken

/-- **BNE** goes on where X is zero. -/
theorem Reaches.leave (tracing : Bool) (hopcode : ram.get pc = 0xD0) :
    Reaches tracing 1 ⟨r.counting pc 0 spent total, ram⟩
      ⟨r.counting (pc + 2) 0 2 (total + 2), ram⟩ := by
  have hshown : (r.counting pc 0 spent total).status.get Condition.zero.flag ≠ false :=
    Bool.ne_false_iff.mpr ((r.zero_counting pc 0 spent total).mpr rfl)
  have hleft := outcome_of_not_taken ram.get (r.counting pc 0 spent total) hshown
  rw [Registers.goOn_counting] at hleft
  exact Reaches.of_outcome tracing hopcode (by decide) rfl rfl hleft

/-! ## Rounds -/

/-- The five bytes of the loop, one by one. -/
theorem bytes_of_loopCode {n : UInt8} (hcode : Loaded ram pc (loopCode n)) :
    ram.get pc = 0xA2 ∧ ram.get (pc + 1) = n ∧ ram.get (pc + 2) = 0xCA ∧
      ram.get (pc + 3) = 0xD0 ∧ ram.get (pc + 4) = 0xFD := by
  obtain ⟨hload, hcode⟩ := hcode.uncons
  obtain ⟨hn, hcode⟩ := hcode.uncons
  obtain ⟨hcount, hcode⟩ := hcode.uncons
  obtain ⟨hbranch, hcode⟩ := hcode.uncons
  obtain ⟨hdistance, -⟩ := hcode.uncons
  have htwo : pc + 1 + 1 = pc + 2 := UInt16.add_assoc pc 1 1
  have hthree : pc + 2 + 1 = pc + 3 := UInt16.add_assoc pc 2 1
  have hfour : pc + 3 + 1 = pc + 4 := UInt16.add_assoc pc 3 1
  rw [htwo] at hcount hbranch hdistance
  rw [hthree] at hbranch hdistance
  rw [hfour] at hdistance
  exact ⟨hload, hn, hcount, hbranch, hdistance⟩

/-- What the way back costs in a loop at `pc`: more where the loop lies across two pages. -/
def backCost (pc : UInt16) : Nat := if highByte (pc + 2) = highByte (pc + 5) then 3 else 5

variable {n : UInt8}

/-- The DEX of the loop. -/
theorem Reaches.countInLoop (tracing : Bool) (hcode : Loaded ram r.pc (loopCode n)) :
    Reaches tracing 1 ⟨r.counting (r.pc + 2) x spent total, ram⟩
      ⟨r.counting (r.pc + 3) (x - 1) 2 (total + 2), ram⟩ := by
  obtain ⟨-, -, hcount, -⟩ := bytes_of_loopCode hcode
  have hbehind : r.pc + 2 + 1 = r.pc + 3 := UInt16.add_assoc r.pc 2 1
  rw [← hbehind]
  exact Reaches.count tracing hcount

/-- **One round**: the DEX, and the BNE that leads back to it. -/
theorem Reaches.round (tracing : Bool) (hcode : Loaded ram r.pc (loopCode n)) (hx : x - 1 ≠ 0) :
    ∃ spent', Reaches tracing 2 ⟨r.counting (r.pc + 2) x spent total, ram⟩
      ⟨r.counting (r.pc + 2) (x - 1) spent' (total + (2 + backCost r.pc)), ram⟩ := by
  obtain ⟨-, -, -, hbranch, hdistance⟩ := bytes_of_loopCode hcode
  have hback : r.pc + 3 - 1 = r.pc + 2 := by grind
  have hcost : (takenCost (r.pc + 3) (r.pc + 2)).toNat = backCost r.pc := by
    have hnext : r.pc + 3 + 2 = r.pc + 5 := UInt16.add_assoc r.pc 3 2
    rw [takenCost, backCost, hnext]
    split <;> rfl
  have hlast : r.pc + 4 = r.pc + 3 + 1 := (UInt16.add_assoc r.pc 3 1).symm
  rw [hlast] at hdistance
  have hcounted : Reaches tracing 1 ⟨r.counting (r.pc + 2) x spent total, ram⟩
      ⟨r.counting (r.pc + 3) (x - 1) 2 (total + 2), ram⟩ := Reaches.countInLoop tracing hcode
  have hround := hcounted.trans (Reaches.again tracing hbranch hdistance hx)
  rw [hback, hcost, Nat.add_assoc] at hround
  exact ⟨_, hround⟩

/-- **After every round the DEX is reached again**, until X shows zero. -/
theorem Reaches.exists_top (tracing : Bool) (hcode : Loaded ram r.pc (loopCode n)) {i : Nat}
    (hi : i < rounds n) :
    ∃ spent, Reaches tracing (1 + 2 * i) ⟨r, ram⟩
      ⟨r.counting (r.pc + 2) (n - UInt8.ofNat i) spent (2 + i * (2 + backCost r.pc)), ram⟩ := by
  induction i with
  | zero =>
    obtain ⟨hload, hn, -⟩ := bytes_of_loopCode hcode
    have hloaded := Reaches.load tracing hload hn
    have hx : n - UInt8.ofNat 0 = n := UInt8.sub_zero n
    rw [hx, Nat.zero_mul]
    exact ⟨2, hloaded⟩
  | succ i ih =>
    obtain ⟨spent, htop⟩ := ih (by omega)
    -- there are rounds to come, so X is not zero yet
    have hne : n - UInt8.ofNat i - 1 ≠ 0 := by
      rw [countdown_succ, ne_eq, countdown_eq_zero_iff (Nat.zero_lt_succ i) hi.le]
      omega
    obtain ⟨spent', hround⟩ := Reaches.round tracing hcode hne
    have hboth := htop.trans hround
    rw [countdown_succ, Nat.add_assoc, Nat.add_assoc, ← Nat.succ_mul] at hboth
    exact ⟨spent', hboth⟩

/-- In the middle of a round X has been counted down, and the BNE is to come. -/
theorem Reaches.middle (tracing : Bool) (hcode : Loaded ram r.pc (loopCode n)) {i : Nat}
    (hi : i < rounds n) :
    Reaches tracing (2 + 2 * i) ⟨r, ram⟩
      ⟨r.counting (r.pc + 3) (n - UInt8.ofNat (i + 1)) 2 (4 + i * (2 + backCost r.pc)), ram⟩ := by
  obtain ⟨spent, htop⟩ := Reaches.exists_top tracing hcode hi
  have hboth := htop.trans (Reaches.countInLoop tracing hcode)
  have hsteps : 1 + 2 * i + 1 = 2 + 2 * i := by omega
  have htotal : 2 + i * (2 + backCost r.pc) + 2 = 4 + i * (2 + backCost r.pc) := by omega
  rw [countdown_succ, hsteps, htotal] at hboth
  exact hboth

/-! ## Every round -/

/-- **The loop is left** after the last round. -/
theorem Reaches.through (tracing : Bool) (hcode : Loaded ram r.pc (loopCode n)) :
    let k := rounds n
    Reaches tracing (1 + 2 * k) ⟨r, ram⟩
      ⟨r.counting (r.pc + 5) 0 2 (4 + (k - 1) * (2 + backCost r.pc) + 2), ram⟩ := by
  intro k
  have hpos : 0 < k := rounds_pos n
  have hmiddle := Reaches.middle tracing hcode (Nat.sub_lt hpos Nat.one_pos)
  have hround : k - 1 + 1 = k := Nat.sub_add_cancel hpos
  have hx : n - UInt8.ofNat k = 0 := (countdown_eq_zero_iff hpos (Nat.le_refl _)).mpr rfl
  rw [hround, hx] at hmiddle
  obtain ⟨-, -, -, hbranch, -⟩ := bytes_of_loopCode hcode
  have hthrough := hmiddle.trans (Reaches.leave tracing hbranch)
  have hbehind : r.pc + 3 + 2 = r.pc + 5 := UInt16.add_assoc r.pc 3 2
  have hsteps : 2 + 2 * (k - 1) + 1 = 1 + 2 * k := by omega
  rw [hbehind, hsteps] at hthrough
  exact hthrough

/-- **Before that PC stands in the loop.** -/
theorem Reaches.exists_inLoop (tracing : Bool) (hcode : Loaded ram r.pc (loopCode n)) {j : Nat}
    (hj : j < 1 + 2 * rounds n) :
    ∃ q, Reaches tracing j ⟨r, ram⟩ ⟨q, ram⟩ ∧ q.pc ∈ [r.pc, r.pc + 2, r.pc + 3] := by
  rcases j with _ | j
  · exact ⟨r, .here _, by simp⟩
  · obtain ⟨i, hi⟩ : ∃ i, j = 2 * i ∨ j = 2 * i + 1 := ⟨j / 2, by omega⟩
    rcases hi with rfl | rfl
    · obtain ⟨spent, htop⟩ := Reaches.exists_top tracing hcode (i := i) (by omega)
      rw [Nat.add_comm] at htop
      exact ⟨_, htop, by simp [Registers.counting]⟩
    · have hmiddle := Reaches.middle tracing hcode (i := i) (by omega)
      rw [Nat.add_comm] at hmiddle
      exact ⟨_, hmiddle, by simp [Registers.counting]⟩

/-- **The counted loop**: wherever `LDX #n`, `DEX` and `BNE` back to the DEX stand in memory, as
    many steps as it takes to go through the loop `k` times succeed, with `k` the number `n`, or 256
    where that is zero.  They lead behind the loop, for the first time: X and the flags show zero,
    and nothing else has changed but the cycles.  These are two for the LDX, two for each DEX, three
    for each BNE that goes back and two for the last one, and two more for each way back if the loop
    lies across two pages. -/
theorem counted_loop (ram : Ram) (r : Registers) (tracing : Bool) (n : UInt8)
    (hcode : Loaded ram r.pc (loopCode n)) :
    let k := if n = 0 then 256 else n.toNat
    let whole := run tracing (1 + 2 * k) (⟨r, ram⟩ : Machine Ram)
    let across := if highByte (r.pc + 2) = highByte (r.pc + 5) then 0 else 2 * (k - 1)
    whole.failure = none ∧ whole.states.length = 1 + 2 * k ∧
      (∃ p : Status,
        whole.machine =
          ⟨{ r with
              pc := r.pc + 5
              x := 0
              status := p
              stepCycles := 2
              cycles := r.cycles + UInt64.ofNat (2 + 2 * k + 3 * (k - 1) + 2 + across) }, ram⟩ ∧
        p.get .zero = true ∧ p.get .negative = false ∧
        r.status.SameBut p [.zero, .negative]) ∧
      ∀ j < 1 + 2 * k,
        (run tracing j (⟨r, ram⟩ : Machine Ram)).machine.registers.pc ≠ r.pc + 5 := by
  intro k whole across
  have hpos : 0 < k := rounds_pos n
  obtain ⟨hfailure, hlength, hmachine⟩ := (Reaches.through tracing hcode).run_eq
  have htotal : 4 + (k - 1) * (2 + backCost r.pc) + 2 = 2 + 2 * k + 3 * (k - 1) + 2 + across := by
    by_cases hpage : highByte (r.pc + 2) = highByte (r.pc + 5)
    · simp only [across, backCost, if_pos hpage]
      omega
    · simp only [across, backCost, if_neg hpage]
      omega
  refine ⟨hfailure, hlength, ⟨r.status.putNZ 0, ?_, ?_, ?_, ?_⟩, ?_⟩
  · rw [← htotal]
    exact hmachine
  · exact (Status.putNZ_tellsOf r.status 0).1.mpr rfl
  · rw [Status.get_putNZ]
    rfl
  · exact r.status.putNZ_sameBut 0
  · intro j hj
    obtain ⟨q, hreaches, hpc⟩ := Reaches.exists_inLoop tracing hcode hj
    rw [hreaches.run_eq.2.2]
    intro hbehind
    have hbehind : q.pc = r.pc + 5 := hbehind
    simp only [hbehind, List.mem_cons, List.not_mem_nil, or_false] at hpc
    rcases hpc with h | h | h <;> grind

/-- From 0 the loop is gone through 256 times; at the end of memory it lies across two pages. -/
theorem counted_loop_around_memory :
    let ram : Ram := Traffic.storeAll (.ofBytes ⟨#[]⟩)
      [(0xFFFD, 0xA2), (0xFFFE, 0x00), (0xFFFF, 0xCA), (0x0000, 0xD0), (0x0001, 0xFD)]
    let r : Registers := { Registers.powerUp with pc := 0xFFFD }
    let whole := run false 513 (⟨r, ram⟩ : Machine Ram)
    whole.failure = none ∧ whole.machine.registers.pc = 0x0002 ∧
      whole.machine.registers.cycles = 1791 := by
  intro ram r whole
  have hcells : cellsFrom 0xFFFD 5 = [0xFFFD, 0xFFFE, 0xFFFF, 0x0000, 0x0001] := by decide
  have hcode : Loaded ram r.pc (loopCode 0x00) := by
    show (cellsFrom 0xFFFD 5).map ram.get = _
    rw [hcells]
    simp only [ram, Traffic.storeAll, List.foldl_cons, List.foldl_nil, Bus.write, Ram.get_set,
      List.map_cons, List.map_nil]
    decide
  -- what else the memory holds does not matter
  clear_value ram
  have hsteps : 1 + 2 * (if (0x00 : UInt8) = 0 then 256 else (0x00 : UInt8).toNat) = 513 := rfl
  obtain ⟨hfailure, -, ⟨p, hmachine, -⟩, -⟩ := counted_loop ram r false 0x00 hcode
  have hacross : highByte (r.pc + 2) ≠ highByte (r.pc + 5) := by
    show highByte (0xFFFD + 2) ≠ highByte (0xFFFD + 5)
    decide
  rw [hsteps] at hfailure hmachine
  rw [if_neg hacross] at hmachine
  refine ⟨hfailure, (congrArg (·.registers.pc) hmachine).trans ?_,
    (congrArg (·.registers.cycles) hmachine).trans ?_⟩
  · show (0xFFFD : UInt16) + 5 = 0x0002
    decide
  · rfl

end Machine

end Nes.Cpu
