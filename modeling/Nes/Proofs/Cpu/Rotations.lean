/-
  Rotations: numbers of many bytes moved by one bit, cell after cell.

  The bit that falls out of a cell stays in the carry and comes into the next cell.  From the lowest
  cell up a number moves to the left, from the highest cell down to the right.

  1. **One cell**: the action of a shift on a cell, as a step from machine to machine (`shifted`,
     `act?_shift`).
  2. **Any cells**: whatever is shifted, nothing but these cells and three flags changes (`shifts`).
  3. **Passes**: over the cells of a number, by induction on them: to the left number and carry
     together are doubled (`valueAt_left`), to the right they are halved (`valueAt_right`).
  4. **The ring**: bytes and carry are a ring of bits, one more than the bytes have, and to rotate
     is to double modulo the largest number in it (`ring_left`).  As many rotations as it has bits
     lead back (`ring_rounds`).

  All of it together is `shift_passes`.
-/
import Mathlib.Data.Nat.ModEq
import Nes.Proofs.Cpu.Effect
import Nes.Proofs.Cpu.Shifts
import Nes.Proofs.Numbers
import Nes.Cpu.Machine

namespace Nes.Cpu

/-- The ways in which the cells of a number are shifted: the first cell one way, the others another
    way. -/
def pass (first later : Shift) : List UInt16 → List (Shift × UInt16)
  | [] => []
  | addr :: rest => (first, addr) :: pass later later rest

theorem map_pass (first later : Shift) (addrs : List UInt16) :
    (pass first later addrs).map Prod.snd = addrs := by
  induction addrs generalizing first with
  | nil => rfl
  | cons addr rest ih => exact congrArg (addr :: ·) (ih later)

namespace Machine

/-! ## One cell -/

/-- The machine after an operation has acted on an operand, if the two suit each other. -/
def act? {β : Type} [Bus β] (m : Machine β) (operation : Operation) (operand : Operand) :
    Option (Machine β) :=
  (operation.action? operand).map fun action =>
    let done := (action m.registers).perform m.bus
    ⟨done.answer, done.bus⟩

/-- The machine after cells have been shifted one after another, each its own way. -/
def shift? (m : Machine Ram) (moves : List (Shift × UInt16)) : Option (Machine Ram) :=
  moves.foldlM (fun m move => m.act? (.shift move.1) (.address move.2)) m

/-- The machine after one cell has been shifted. -/
def shifted (m : Machine Ram) (move : Shift × UInt16) : Machine Ram :=
  let v := m.bus.get move.2
  let new := move.1.result v (m.registers.status.get .carry)
  ⟨(m.registers.putFlag .carry (move.1.carryOut v)).putNZ new, m.bus.set move.2 new⟩

/-- The machine after cells have been shifted. -/
def shiftAll (m : Machine Ram) (moves : List (Shift × UInt16)) : Machine Ram :=
  moves.foldl shifted m

section

variable (m : Machine Ram)

/-- **A cell can always be shifted.** -/
theorem act?_shift (way : Shift) (addr : UInt16) :
    m.act? (.shift way) (.address addr) = some (m.shifted (way, addr)) := rfl

theorem shift?_eq (moves : List (Shift × UInt16)) : m.shift? moves = some (m.shiftAll moves) := by
  induction moves generalizing m with
  | nil => rfl
  | cons move rest ih =>
    rw [shift?, List.foldlM_cons, act?_shift]
    exact ih (m.shifted move)

theorem carryNat_shifted (move : Shift × UInt16) :
    (m.shifted move).registers.status.carryNat = (move.1.carryOut (m.bus.get move.2)).toNat := by
  rw [Status.carryNat]
  congr 1
  simp [shifted, Registers.putNZ, Registers.putFlag]

theorem get_shifted (move : Shift × UInt16) (addr : UInt16) :
    (m.shifted move).bus.get addr =
      if move.2 = addr then
        move.1.result (m.bus.get move.2) (m.registers.status.get .carry)
      else m.bus.get addr :=
  Ram.get_set m.bus move.2 addr _

end

/-! ## Any cells -/

/-- Shifting cells one after another leads from `m` to `m'`. -/
structure Shifts (m : Machine Ram) (moves : List (Shift × UInt16)) (m' : Machine Ram) : Prop where
  shift?_eq : m.shift? moves = some m'
  /-- No other cell changes, -/
  get_eq : ∀ addr, addr ∉ moves.map Prod.snd → m'.bus.get addr = m.bus.get addr
  /-- no register but the flags, -/
  registers_eq : m'.registers = { m.registers with status := m'.registers.status }
  /-- no flag but these three, -/
  sameBut : m.registers.status.SameBut m'.registers.status [.carry, .zero, .negative]
  /-- and two of them tell of the byte that was shifted last. -/
  tellsOf : ∀ move, moves.getLast? = some move →
    m'.registers.status.TellsOf (m'.bus.get move.2)

/-- **Any cells**: what has been shifted is all that has changed. -/
theorem shifts (m : Machine Ram) (moves : List (Shift × UInt16)) :
    m.Shifts moves (m.shiftAll moves) := by
  induction moves using List.reverseRecOn with
  | nil => exact ⟨rfl, fun _ _ => rfl, rfl, .refl _ _, nofun⟩
  | append_singleton moves move ih =>
    have hlast : m.shiftAll (moves ++ [move]) = (m.shiftAll moves).shifted move :=
      List.foldl_concat _ _ _ _
    generalize m.shiftAll moves = before at ih hlast
    refine ⟨m.shift?_eq _, ?_, ?_, ?_, ?_⟩
    · intro addr haddr
      rw [List.map_append, List.mem_append, not_or] at haddr
      have hne : move.2 ≠ addr := fun h => haddr.2 (List.mem_singleton.mpr h.symm)
      rw [hlast, get_shifted, if_neg hne]
      exact ih.get_eq addr haddr.1
    · rw [hlast]
      exact congrArg (fun r => { r with status := (before.shifted move).registers.status })
        ih.registers_eq
    · rw [hlast]
      have hcarry :=
        ih.sameBut.put (f := .carry) (by decide) (move.1.carryOut (before.bus.get move.2))
      exact hcarry.putNZ (by decide) (by decide) _
    · intro final hfinal
      obtain rfl : move = final := by
        rw [List.getLast?_concat] at hfinal
        exact Option.some.inj hfinal
      rw [hlast, get_shifted, if_pos rfl]
      exact Status.putNZ_tellsOf _ _

/-! ## Passes -/

/-- The number in some cells, the lowest byte first. -/
def valueAt (m : Machine Ram) (addrs : List UInt16) : Nat := number (addrs.map m.bus.get)

section

variable (m : Machine Ram) {first : Shift} {addr : UInt16} {addrs rest : List UInt16}

theorem valueAt_lt (addrs : List UInt16) : m.valueAt addrs < 256 ^ addrs.length := by
  have hlt := number_lt (addrs.map m.bus.get)
  rwa [List.length_map] at hlt

theorem valueAt_cons (addr : UInt16) (rest : List UInt16) :
    m.valueAt (addr :: rest) = (m.bus.get addr).toNat + 256 * m.valueAt rest :=
  number_cons _ _

theorem valueAt_concat (rest : List UInt16) (addr : UInt16) :
    m.valueAt (rest ++ [addr]) = m.valueAt rest + 256 ^ rest.length * (m.bus.get addr).toNat := by
  rw [valueAt, List.map_append]
  refine (number_concat _ _).trans ?_
  rw [List.length_map]
  rfl

/-- A cell apart from the others has no part in their number. -/
theorem valueAt_shifted (way : Shift) (haddr : addr ∉ rest) :
    (m.shifted (way, addr)).valueAt rest = m.valueAt rest := by
  refine congrArg number (List.map_congr_left fun cell hcell => ?_)
  have hne : addr ≠ cell := by
    rintro rfl
    exact haddr hcell
  rw [get_shifted, if_neg hne]

/-- Of a pass the first cell is shifted as if it were the only one. -/
theorem get_pass (first later : Shift) (haddr : addr ∉ rest) :
    (m.shiftAll (pass first later (addr :: rest))).bus.get addr =
      first.result (m.bus.get addr) (m.registers.status.get .carry) := by
  have hbehind : addr ∉ (pass later later rest).map Prod.snd := by rwa [map_pass]
  refine (((m.shifted (first, addr)).shifts _).get_eq addr hbehind).trans ?_
  rw [get_shifted, if_pos rfl]

/-- **From the lowest cell up** number and carry together are doubled, and the bit that comes into
    the first cell is added. -/
theorem valueAt_left (hfirst : first.isLeft) (hnil : addrs = [] → first = .rotateLeft)
    (hnodup : addrs.Nodup) :
    let m' := m.shiftAll (pass first .rotateLeft addrs)
    m'.valueAt addrs + 256 ^ addrs.length * m'.registers.status.carryNat =
      2 * m.valueAt addrs + (first.carryIn (m.registers.status.get .carry)).toNat := by
  induction addrs generalizing m first with
  | nil =>
    obtain rfl := hnil rfl
    show 0 + 1 * m.registers.status.carryNat = 2 * 0 + m.registers.status.carryNat
    omega
  | cons addr rest ih =>
    obtain ⟨haddr, hrest⟩ := List.nodup_cons.mp hnodup
    have hlow := Shift.moved_left (m.bus.get addr) (m.registers.status.get .carry) hfirst
    have hbehind := ih (m.shifted (first, addr)) (show Shift.rotateLeft.isLeft from rfl)
      (fun _ => rfl) hrest
    rw [m.valueAt_shifted first haddr] at hbehind
    -- what falls out of the first cell comes into the next one
    have hcarry : (Shift.rotateLeft.carryIn
        ((m.shifted (first, addr)).registers.status.get .carry)).toNat =
        (first.carryOut (m.bus.get addr)).toNat := m.carryNat_shifted (first, addr)
    rw [hcarry] at hbehind
    intro m'
    have hm' : (m.shifted (first, addr)).shiftAll (pass .rotateLeft .rotateLeft rest) = m' := rfl
    simp only [hm'] at hbehind
    have hpow : 256 ^ (addr :: rest).length * m'.registers.status.carryNat =
        256 * (256 ^ rest.length * m'.registers.status.carryNat) := by
      rw [List.length_cons, Nat.pow_succ, Nat.mul_comm (256 ^ rest.length), Nat.mul_assoc]
    rw [valueAt_cons, valueAt_cons, m.get_pass first .rotateLeft haddr, hpow]
    omega

/-- **From the highest cell down** number and carry together are halved, with the bit that comes
    into the first cell above them. -/
theorem valueAt_right (hfirst : first.isLeft = false) (hnil : addrs = [] → first = .rotateRight)
    (hnodup : addrs.Nodup) :
    let m' := m.shiftAll (pass first .rotateRight addrs.reverse)
    2 * m'.valueAt addrs + m'.registers.status.carryNat =
      m.valueAt addrs +
        256 ^ addrs.length * (first.carryIn (m.registers.status.get .carry)).toNat := by
  induction addrs using List.reverseRecOn generalizing m first with
  | nil =>
    obtain rfl := hnil rfl
    show 2 * 0 + m.registers.status.carryNat = 0 + 1 * m.registers.status.carryNat
    omega
  | append_singleton rest addr ih =>
    obtain ⟨hrest, -, hapart⟩ := List.nodup_append.mp hnodup
    have haddr : addr ∉ rest := fun hmem => hapart addr hmem addr (List.mem_singleton_self addr) rfl
    have hhigh := Shift.moved_right (m.bus.get addr) (m.registers.status.get .carry) hfirst
    have hbehind := ih (m.shifted (first, addr)) (show Shift.rotateRight.isLeft = false from rfl)
      (fun _ => rfl) hrest
    rw [m.valueAt_shifted first haddr] at hbehind
    have hcarry : (Shift.rotateRight.carryIn
        ((m.shifted (first, addr)).registers.status.get .carry)).toNat =
        (first.carryOut (m.bus.get addr)).toNat := m.carryNat_shifted (first, addr)
    rw [hcarry] at hbehind
    rw [List.reverse_append, List.reverse_singleton, List.singleton_append]
    intro m'
    have hm' : (m.shifted (first, addr)).shiftAll (pass .rotateRight .rotateRight rest.reverse) =
        m' := rfl
    simp only [hm'] at hbehind
    have hbyte := m.get_pass first .rotateRight (mt List.mem_reverse.mp haddr)
    have hscaled := congrArg (256 ^ rest.length * ·) hhigh
    simp only [Nat.mul_add, Nat.mul_left_comm _ 2, Nat.mul_left_comm _ 256] at hscaled
    rw [valueAt_concat, valueAt_concat, hbyte, List.length_append, List.length_singleton,
      Nat.pow_succ, Nat.mul_right_comm]
    omega

/-- Halved are number and carry where twice the one and the other are what was there. -/
theorem valueAt_right_div (hfirst : first.isLeft = false) (hne : addrs ≠ [])
    (hnodup : addrs.Nodup) :
    let m' := m.shiftAll (pass first .rotateRight addrs.reverse)
    let carry := (first.carryIn (m.registers.status.get .carry)).toNat
    m'.valueAt addrs = (m.valueAt addrs + carry * 256 ^ addrs.length) / 2 ∧
      m'.registers.status.carryNat = m.valueAt addrs % 2 := by
  intro m' carry
  have hhalved := m.valueAt_right hfirst (fun h => absurd h hne) hnodup
  have hcarry := m'.registers.status.carryNat_le
  obtain ⟨half, hhalf⟩ := exists_pow_eq (mt List.length_eq_zero_iff.mp hne)
  have heven : carry * 256 ^ addrs.length = 2 * (half * carry) := by
    rw [hhalf, Nat.mul_comm carry, Nat.mul_assoc]
  rw [Nat.mul_comm, heven] at hhalved
  rw [heven]
  simp only [m'] at *
  omega

/-- **What was rotated up is rotated down again.** -/
theorem valueAt_left_right (hnodup : addrs.Nodup) :
    let m' := m.shiftAll
      (pass .rotateLeft .rotateLeft addrs ++ pass .rotateRight .rotateRight addrs.reverse)
    m'.valueAt addrs = m.valueAt addrs ∧
      m'.registers.status.get .carry = m.registers.status.get .carry := by
  intro m'
  let up := m.shiftAll (pass .rotateLeft .rotateLeft addrs)
  have hup := m.valueAt_left (show Shift.rotateLeft.isLeft from rfl) (fun _ => rfl) hnodup
  have hdown := up.valueAt_right (show Shift.rotateRight.isLeft = false from rfl) (fun _ => rfl)
    hnodup
  have hm' : m' = up.shiftAll (pass .rotateRight .rotateRight addrs.reverse) :=
    List.foldl_append
  simp only [← hm'] at hdown
  have hback : 2 * m'.valueAt addrs + m'.registers.status.carryNat =
      2 * m.valueAt addrs + m.registers.status.carryNat := hdown.trans hup
  have hcarry := m.registers.status.carryNat_le
  have hcarry' := m'.registers.status.carryNat_le
  rw [← Status.carryNat_inj]
  omega

end

/-! ## The ring of bits -/

/-- The number of the ring that cells and carry form together. -/
def ring (m : Machine Ram) (addrs : List UInt16) : Nat :=
  m.valueAt addrs + 256 ^ addrs.length * m.registers.status.carryNat

/-- The largest number in a ring of `n` bytes and the carry. -/
def largest (n : Nat) : Nat := 2 * 256 ^ n - 1

section

variable (m : Machine Ram) (addrs : List UInt16)

theorem ring_le : m.ring addrs ≤ largest addrs.length := by
  have hvalue := m.valueAt_lt addrs
  have hcarry := Nat.mul_le_mul_left (256 ^ addrs.length) m.registers.status.carryNat_le
  rw [ring, largest]
  omega

/-- **To rotate is to double** modulo the largest number, which alone stays as it is. -/
theorem ring_left (hnodup : addrs.Nodup) :
    let m' := m.shiftAll (pass .rotateLeft .rotateLeft addrs)
    (m'.ring addrs = largest addrs.length ↔ m.ring addrs = largest addrs.length) ∧
      m'.ring addrs ≡ 2 * m.ring addrs [MOD largest addrs.length] := by
  intro m'
  have hdoubled : m'.ring addrs = 2 * m.valueAt addrs + m.registers.status.carryNat :=
    m.valueAt_left (show Shift.rotateLeft.isLeft from rfl) (fun _ => rfl) hnodup
  have hvalue := m.valueAt_lt addrs
  have hpos : 0 < 256 ^ addrs.length := Nat.pow_pos (by decide)
  rw [hdoubled, ring, largest]
  rcases Nat.le_one_iff_eq_zero_or_eq_one.mp m.registers.status.carryNat_le with hclear | hset
  · rw [hclear]
    exact ⟨by omega, Nat.ModEq.refl _⟩
  · rw [hset]
    refine ⟨by omega, ?_⟩
    -- one round of the largest number more
    have hround : 2 * (m.valueAt addrs + 256 ^ addrs.length * 1) =
        2 * m.valueAt addrs + 1 + (2 * 256 ^ addrs.length - 1) := by omega
    rw [hround]
    exact Nat.modEq_add_modulus_iff.mpr (Nat.ModEq.refl _)

/-- Any number of passes: doubled as often. -/
theorem ring_lefts (hnodup : addrs.Nodup) (count : Nat) :
    let m' := m.shiftAll (List.replicate count (pass .rotateLeft .rotateLeft addrs)).flatten
    (m'.ring addrs = largest addrs.length ↔ m.ring addrs = largest addrs.length) ∧
      m'.ring addrs ≡ 2 ^ count * m.ring addrs [MOD largest addrs.length] := by
  induction count generalizing m with
  | zero =>
    refine ⟨Iff.rfl, ?_⟩
    rw [Nat.pow_zero, Nat.one_mul]
    exact Nat.ModEq.refl _
  | succ count ih =>
    obtain ⟨hlargest, hdoubled⟩ := m.ring_left addrs hnodup
    obtain ⟨hlargest', hdoubled'⟩ := ih (m.shiftAll (pass .rotateLeft .rotateLeft addrs))
    rw [List.replicate_succ, List.flatten_cons, shiftAll, List.foldl_append]
    refine ⟨hlargest'.trans hlargest, hdoubled'.trans ?_⟩
    rw [Nat.pow_succ, Nat.mul_assoc]
    exact hdoubled.mul_left _

/-- **As many passes as the ring has bits lead back.** -/
theorem ring_rounds (hnodup : addrs.Nodup) :
    let passes := List.replicate (8 * addrs.length + 1) (pass .rotateLeft .rotateLeft addrs)
    (m.shiftAll passes.flatten).ring addrs = m.ring addrs := by
  intro passes
  obtain ⟨hlargest, hdoubled⟩ := m.ring_lefts addrs hnodup (8 * addrs.length + 1)
  have hle := m.ring_le addrs
  have hle' := (m.shiftAll passes.flatten).ring_le addrs
  have hpow : 2 ^ (8 * addrs.length + 1) = largest addrs.length + 1 := by
    have hpos : 0 < 256 ^ addrs.length := Nat.pow_pos (by decide)
    have hbytes : 2 ^ (8 * addrs.length) = 256 ^ addrs.length := Nat.pow_mul 2 8 addrs.length
    rw [Nat.pow_succ, hbytes, largest]
    omega
  have hsame : (m.shiftAll passes.flatten).ring addrs ≡ m.ring addrs
      [MOD largest addrs.length] := by
    refine hdoubled.trans ?_
    rw [hpow, Nat.succ_mul]
    exact Nat.ModEq.modulus_mul_add
  -- modulo the largest number, only that number and 0 are confused
  rcases Nat.eq_or_lt_of_le hle with heq | hlt
  · rw [heq]
    exact hlargest.mpr heq
  · have hne : (m.shiftAll passes.flatten).ring addrs ≠ largest addrs.length :=
      fun h => absurd (hlargest.mp h) (Nat.ne_of_lt hlt)
    exact hsame.eq_of_lt_of_lt (Nat.lt_of_le_of_ne hle' hne) hlt

/-- The number in the ring tells the number in the cells and the carry. -/
theorem ring_inj {m m' : Machine Ram} (h : m'.ring addrs = m.ring addrs) :
    m'.valueAt addrs = m.valueAt addrs ∧
      m'.registers.status.get .carry = m.registers.status.get .carry := by
  have hvalue := m.valueAt_lt addrs
  have hvalue' := m'.valueAt_lt addrs
  rw [ring, ring] at h
  rw [← Status.carryNat_inj]
  rcases Nat.le_one_iff_eq_zero_or_eq_one.mp m.registers.status.carryNat_le with hc | hc <;>
    rcases Nat.le_one_iff_eq_zero_or_eq_one.mp m'.registers.status.carryNat_le with hc' | hc' <;>
    rw [hc, hc'] at h ⊢ <;> omega

end

/-! ## Every number -/

/-- **Numbers of any length are shifted and rotated through the carry.**  In distinct cells, the
    lowest byte first, lies a number, and the carry is clear or set.

    * To rotate the cells from the lowest up doubles the number and adds the carry; what does not
      fit is the carry afterwards.  Where the first cell is shifted, no carry is added.
    * To rotate them from the highest down halves the number with the carry above it, and the
      remainder is the carry afterwards.  Where the first cell is shifted, no carry is above it.
    * A pass up and a pass down, or as many passes up as there are bits in the cells and one more,
      leave the number and the carry as they were.

    Each of these can be done from every state, and it changes nothing else (`Shifts`). -/
theorem shift_passes (m : Machine Ram) {addrs : List UInt16} (hne : addrs ≠ [])
    (hnodup : addrs.Nodup) :
    let power := 256 ^ addrs.length
    let value := m.valueAt addrs
    let carry := m.registers.status.carryNat
    (∃ m', m.Shifts (pass .rotateLeft .rotateLeft addrs) m' ∧
      m'.valueAt addrs + power * m'.registers.status.carryNat = 2 * value + carry) ∧
    (∃ m', m.Shifts (pass .shiftLeft .rotateLeft addrs) m' ∧
      m'.valueAt addrs + power * m'.registers.status.carryNat = 2 * value) ∧
    (∃ m', m.Shifts (pass .rotateRight .rotateRight addrs.reverse) m' ∧
      m'.valueAt addrs = (value + carry * power) / 2 ∧
        m'.registers.status.carryNat = value % 2) ∧
    (∃ m', m.Shifts (pass .shiftRight .rotateRight addrs.reverse) m' ∧
      m'.valueAt addrs = value / 2 ∧ m'.registers.status.carryNat = value % 2) ∧
    (∃ m', m.Shifts (pass .rotateLeft .rotateLeft addrs ++
        pass .rotateRight .rotateRight addrs.reverse) m' ∧
      m'.valueAt addrs = value ∧
        m'.registers.status.get .carry = m.registers.status.get .carry) ∧
    ∃ m', m.Shifts
        (List.replicate (8 * addrs.length + 1) (pass .rotateLeft .rotateLeft addrs)).flatten m' ∧
      m'.valueAt addrs = value ∧
        m'.registers.status.get .carry = m.registers.status.get .carry := by
  intro power value carry
  refine ⟨?_, ?_, ?_, ?_, ?_, ?_⟩
  · have hleft : Shift.rotateLeft.isLeft := rfl
    exact ⟨_, m.shifts _, m.valueAt_left hleft (fun _ => rfl) hnodup⟩
  · have hleft : Shift.shiftLeft.isLeft := rfl
    exact ⟨_, m.shifts _, m.valueAt_left hleft (fun h => absurd h hne) hnodup⟩
  · have hright : Shift.rotateRight.isLeft = false := rfl
    exact ⟨_, m.shifts _, m.valueAt_right_div hright hne hnodup⟩
  · have hright : Shift.shiftRight.isLeft = false := rfl
    obtain ⟨hvalue, hcarry⟩ := m.valueAt_right_div hright hne hnodup
    have hnone : 0 * 256 ^ addrs.length = 0 := Nat.zero_mul _
    refine ⟨_, m.shifts _, hvalue.trans ?_, hcarry⟩
    show (value + 0 * 256 ^ addrs.length) / 2 = value / 2
    rw [hnone, Nat.add_zero]
  · exact ⟨_, m.shifts _, m.valueAt_left_right hnodup⟩
  · exact ⟨_, m.shifts _, ring_inj addrs (m.ring_rounds addrs hnodup)⟩

/-- $C081 in two cells apart, with the carry set: to the left it becomes $8103, to the right $E040,
    and either way a bit falls out. -/
theorem shift_passes_two_bytes :
    let ram : Ram := Traffic.storeAll (.ofBytes ⟨#[]⟩) [(0x0300, 0x81), (0x0005, 0xC0)]
    let m : Machine Ram := ⟨{ Registers.powerUp with status := ⟨0x25⟩ }, ram⟩
    let addrs : List UInt16 := [0x0300, 0x0005]
    (∃ m', m.Shifts (pass .rotateLeft .rotateLeft addrs) m' ∧
      m'.valueAt addrs = 0x8103 ∧ m'.registers.status.carryNat = 1) ∧
    ∃ m', m.Shifts (pass .rotateRight .rotateRight [0x0005, 0x0300]) m' ∧
      m'.valueAt addrs = 0xE040 ∧ m'.registers.status.carryNat = 1 := by
  intro ram m addrs
  have hbytes : ram.get 0x0300 = 0x81 ∧ ram.get 0x0005 = 0xC0 := by
    simp only [ram, Traffic.storeAll, List.foldl_cons, List.foldl_nil, Bus.write, Ram.get_set]
    decide
  have hvalue : m.valueAt addrs = number [0x81, 0xC0] := by
    show number [ram.get 0x0300, ram.get 0x0005] = _
    rw [hbytes.1, hbytes.2]
  have hcarry : m.registers.status.carryNat = 1 := by decide
  -- what else lies in memory does not matter
  have hpasses : ∀ m : Machine Ram, m.valueAt addrs = number [0x81, 0xC0] →
      m.registers.status.carryNat = 1 →
      (∃ m', m.Shifts (pass .rotateLeft .rotateLeft addrs) m' ∧
        m'.valueAt addrs = 0x8103 ∧ m'.registers.status.carryNat = 1) ∧
      ∃ m', m.Shifts (pass .rotateRight .rotateRight [0x0005, 0x0300]) m' ∧
        m'.valueAt addrs = 0xE040 ∧ m'.registers.status.carryNat = 1 := by
    intro m hvalue hcarry
    have hnumber : number [0x81, 0xC0] = 0xC081 := by decide
    obtain ⟨⟨up, hup, hdoubled⟩, -, ⟨down, hdown, hhalved, hout⟩, -⟩ :=
      m.shift_passes (List.cons_ne_nil 0x0300 [0x0005]) (by decide)
    rw [hvalue, hcarry, hnumber] at hdoubled hhalved
    rw [hvalue, hnumber] at hout
    have hlt : up.valueAt addrs < 65536 := up.valueAt_lt addrs
    have hdoubled' : up.valueAt addrs + 65536 * up.registers.status.carryNat = 0x18103 := hdoubled
    exact ⟨⟨up, hup, by omega, by omega⟩, ⟨down, hdown, hhalved, hout⟩⟩
  exact hpasses m hvalue hcarry

end Machine

end Nes.Cpu
