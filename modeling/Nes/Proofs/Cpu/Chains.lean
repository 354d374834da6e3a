/-
  Chains: arithmetic on numbers of many bytes, one byte after the other.

  Straight-line code adds two numbers from their lowest bytes up: it loads a byte of the one, adds
  the byte of the other, and leaves the carry for the next two bytes, since loading does not touch
  it.  Subtracting goes the same way, and to compare two numbers their lowest bytes are compared
  and the others subtracted.

  1. **Sums**: the bytes and the last carry together ARE the sum (`Sums`), and the last overflow and
     sign tell of the sum of the signed numbers (`Signs`).  What the lowest bytes give comes in
     below what is given by the others: that is the step (`Sums.cons`, `Signs.cons`).
  2. **Links**: the two instructions for one byte; they add it or its complement
     (`Link.sum_apply`), and the run goes on behind them (`Machine.run_link`).
  3. **Chains**: by induction on the bytes, every chain (`Machine.run_carry_chain`).
-/
import Nes.Proofs.Cpu.Reaching
import Nes.Proofs.Numbers

namespace Nes.Cpu

/-! ## Sums byte by byte -/

/-- The bytes `sum` and the carry together are the sum of `xs`, `ys` and `c`. -/
structure Sums (xs ys : List UInt8) (c : Nat) (sum : List UInt8) (p : Status) : Prop where
  length_eq : sum.length = xs.length
  number_eq : number sum + 256 ^ xs.length * p.carryNat = number xs + number ys + c

/-- Overflow and sign tell of `s`, a sum of signed numbers of `n` bytes. -/
structure Signs (n : Nat) (s : Int) (p : Status) : Prop where
  overflow_iff : p.get .overflow = true ↔ Overflows n s
  negative_iff : (p.get .negative ^^ p.get .overflow) = true ↔ s < 0

section

variable {x y a : UInt8} {xs ys sum : List UInt8} {c : Nat} {q p : Status}

theorem Sums.nil (p : Status) : Sums [] [] p.carryNat [] p where
  length_eq := rfl
  number_eq := by
    show 0 + 1 * p.carryNat = 0 + 0 + p.carryNat
    omega

/-- **One byte more**: the carry of the lowest bytes comes into the sum of the others. -/
theorem Sums.cons (hlow : a.toNat + 256 * q.carryNat = x.toNat + y.toNat + c)
    (h : Sums xs ys q.carryNat sum p) : Sums (x :: xs) (y :: ys) c (a :: sum) p where
  length_eq := congrArg (· + 1) h.length_eq
  number_eq := by
    have hrest := h.number_eq
    have hpow : 256 ^ (x :: xs).length * p.carryNat = 256 * (256 ^ xs.length * p.carryNat) := by
      rw [List.length_cons, Nat.pow_succ, Nat.mul_comm (256 ^ xs.length), Nat.mul_assoc]
    rw [number_cons, number_cons, number_cons, hpow]
    omega

/-- **One byte more**: the signs are those of the upper bytes. -/
theorem Signs.cons (hxs : xs ≠ []) (hys : ys ≠ [])
    (hlow : a.toNat + 256 * q.carryNat = x.toNat + y.toNat + c)
    (h : Signs xs.length (signedNumber xs + signedNumber ys + q.carryNat) p) :
    Signs (x :: xs).length (signedNumber (x :: xs) + signedNumber (y :: ys) + c) p := by
  have ha := a.toNat_lt
  have hlength : xs.length ≠ 0 := fun h => hxs (List.length_eq_zero_iff.mp h)
  have hsum : signedNumber (x :: xs) + signedNumber (y :: ys) + c =
      a.toNat + 256 * (signedNumber xs + signedNumber ys + q.carryNat) := by
    rw [signedNumber_cons x hxs, signedNumber_cons y hys]
    omega
  rw [hsum]
  refine ⟨h.overflow_iff.trans (overflows_succ_iff hlength ha _).symm, h.negative_iff.trans ?_⟩
  omega

end

/-- After a sum the signs tell of it. -/
theorem Registers.signs_addToA (r : Registers) (m : UInt8) :
    Signs 1 (signed r.a + signed m + r.status.carryNat) (r.addToA m).status := by
  have ha := r.a.toNat_lt
  have hm := m.toNat_lt
  have hc := r.status.carryNat_le
  have hbyte := (r.addToA m).a.toNat_lt
  have hsum := r.addToA_sum m
  have hoverflow := r.addToA_overflow m
  have hnegative : (r.addToA m).status.get .negative = true ↔ signed (r.addToA m).a < 0 :=
    (Status.putNZ_tellsOf _ _).2
  constructor
  · rw [hoverflow, Overflows]
    omega
  · -- without overflow the sign is that of the sum, and with overflow it is the other one
    cases hv : (r.addToA m).status.get .overflow with
    | false =>
      rw [hv] at hoverflow
      have hfits := mt hoverflow.mpr Bool.false_ne_true
      rw [Bool.xor_false, hnegative]
      rw [signed_eq, signed_eq] at hfits ⊢
      rw [signed_eq]
      split at hfits <;> split at hfits <;> split <;> omega
    | true =>
      have hover := hoverflow.mp hv
      rw [Bool.xor_true, Bool.not_eq_true', ← Bool.not_eq_true, hnegative]
      rw [signed_eq, signed_eq] at hover ⊢
      rw [signed_eq]
      split at hover <;> split at hover <;> split <;> omega

/-! ## Links -/

/-- What a chain does with two bytes. -/
inductive Link where
  | add
  | subtract
  | compare
  deriving DecidableEq

namespace Link

/-- The operation that does it. -/
def operation : Link → Operation
  | .add => .add
  | .subtract => .subtract
  | .compare => .compare .a

/-- The opcode of that operation, for a byte that comes with the instruction. -/
def opcode : Link → UInt8
  | .add => 0x69
  | .subtract => 0xE9
  | .compare => 0xC9

/-- What is added to the upper byte: to subtract or to compare is to add the complement. -/
def addend : Link → UInt8 → UInt8
  | .add, y => y
  | .subtract, y | .compare, y => ~~~ y

/-- The carry that comes into the sum: a comparison borrows nothing, whatever the carry shows. -/
def carryIn (p : Status) : Link → Nat
  | .add | .subtract => p.carryNat
  | .compare => 1

/-- What a link does to the registers, with the upper byte in A. -/
def apply (y : UInt8) (r : Registers) : Link → Registers
  | .add => r.addToA y
  | .subtract => r.addToA (~~~ y)
  | .compare => r.compareWith r.a y

theorem decode?_opcode (link : Link) :
    Instruction.decode? link.opcode = some ⟨link.operation, .immediate⟩ := by
  cases link <;> decide

/-- What the instruction of a link makes of the registers. -/
theorem outcome_eq (link : Link) (mem : UInt16 → UInt8) (r : Registers) :
    let q := (Instruction.mk link.operation .immediate).outcome mem r
    q.a = (link.apply (mem (r.pc + 1)) r).a ∧
      q.status = (link.apply (mem (r.pc + 1)) r).status ∧ q.pc = r.pc + 2 := by
  cases link <;> exact ⟨rfl, rfl, rfl⟩

/-- A link makes the byte `sum` and the flags `q` of the bytes `x` and `y` and the flags `p`. -/
structure Joins (link : Link) (x y : UInt8) (p : Status) (sum : UInt8) (q : Status) : Prop where
  sum_eq : sum.toNat + 256 * q.carryNat = x.toNat + (link.addend y).toNat + link.carryIn p
  signs : link ≠ .compare →
    Signs 1 (signedNumber [x] + signedNumber [link.addend y] + link.carryIn p) q

/-- Loading the upper byte leaves the carry as it is. -/
theorem Joins.of_putNZ {link : Link} {x y v sum : UInt8} {p q : Status}
    (h : link.Joins x y (p.putNZ v) sum q) : link.Joins x y p sum q := by
  have hcarry : link.carryIn (p.putNZ v) = link.carryIn p := by
    cases link with
    | add | subtract => exact Status.carryNat_inj.mpr (by simp)
    | compare => rfl
  obtain ⟨hsum, hsigns⟩ := h
  rw [hcarry] at hsum hsigns
  exact ⟨hsum, hsigns⟩

/-- **Each link is a sum**; after a comparison A keeps the upper byte, but the flags are those of
    the difference. -/
theorem exists_joins (link : Link) (y : UInt8) (r : Registers) :
    ∃ sum, link.Joins r.a y r.status sum (link.apply y r).status ∧
      (link ≠ .compare → (link.apply y r).a = sum) := by
  cases link with
  | add =>
    have hsigns := r.signs_addToA y
    rw [← signedNumber_singleton, ← signedNumber_singleton] at hsigns
    exact ⟨_, ⟨r.addToA_sum y, fun _ => hsigns⟩, fun _ => rfl⟩
  | subtract =>
    have hsigns := r.signs_addToA (~~~ y)
    rw [← signedNumber_singleton, ← signedNumber_singleton] at hsigns
    exact ⟨_, ⟨r.addToA_sum (~~~ y), fun _ => hsigns⟩, fun _ => rfl⟩
  | compare =>
    refine ⟨r.a - y, ⟨?_, fun hne => absurd rfl hne⟩, fun hne => absurd rfl hne⟩
    have ha := r.a.toNat_lt
    have hy := y.toNat_lt
    have hcarry := r.compareWith_carry y r.a
    show (r.a - y).toNat + 256 * (r.compareWith r.a y).status.carryNat =
      r.a.toNat + (~~~ y).toNat + 1
    rw [toNat_complement, UInt8.toNat_sub, Status.carryNat]
    cases hset : (r.compareWith r.a y).status.get .carry with
    | false =>
      rw [hset] at hcarry
      have hless := mt hcarry.mpr Bool.false_ne_true
      show _ + 256 * 0 = _
      omega
    | true =>
      have hle := hcarry.mp hset
      show _ + 256 * 1 = _
      omega

end Link

/-! ## Chains -/

/-- The given bytes lie in memory from an address on. -/
def Loaded (ram : Ram) (addr : UInt16) (bytes : List UInt8) : Prop :=
  (cellsFrom addr bytes.length).map ram.get = bytes

theorem Loaded.uncons {ram : Ram} {addr : UInt16} {b : UInt8} {rest : List UInt8}
    (h : Loaded ram addr (b :: rest)) : ram.get addr = b ∧ Loaded ram (addr + 1) rest := by
  rw [Loaded, List.length_cons, cellsFrom_succ] at h
  exact List.cons.inj h

/-- Code of any length that fits into memory lies there if memory begins with it. -/
theorem loaded_ofBytes {code : List UInt8} (hfits : code.length ≤ 65536) :
    Loaded (.ofBytes ⟨code.toArray⟩) 0 code := by
  have hlength : (cellsFrom 0 code.length).length = code.length := by simp [cellsFrom]
  refine List.ext_getElem (by rw [List.length_map, hlength]) fun k hk hk' => ?_
  have hcell : (0 + UInt16.ofNat k).toNat = k := by
    rw [UInt16.zero_add]
    exact UInt16.toNat_ofNat_of_lt' (by show k < 65536; omega)
  simp only [cellsFrom, List.getElem_map, List.getElem_range, Ram.get_ofBytes, hcell]
  exact dif_pos hk'

/-- The code of a chain: the lowest bytes are joined by `first`, the others by `later`. -/
def chainCode (first later : Link) : List UInt8 → List UInt8 → List UInt8
  | x :: xs, y :: ys => 0xA9 :: x :: first.opcode :: y :: chainCode later later xs ys
  | _, _ => []

/-- Every second element of a list. -/
def everySecond {α : Type} : List α → List α
  | _ :: a :: rest => a :: everySecond rest
  | _ => []

/-- What stands in A after each link of a chain; a link takes two steps. -/
def Run.results (run : Run Ram) : List UInt8 := (everySecond run.states).map (·.a)

namespace Machine

variable {ram : Ram} {r : Registers} {tracing : Bool} {x y : UInt8} {xs ys rest : List UInt8}

/-- A run that begins with an instruction that stores nothing. -/
theorem run_of_decode? (tracing : Bool) {i : Instruction}
    (hdecode : Instruction.decode? (ram.get r.pc) = some i) (himplemented : i.isImplemented)
    (hstores : i.stores ram.get r = []) (count : Nat) :
    let q := i.outcome ram.get r
    let whole := run tracing (count + 1) (⟨r, ram⟩ : Machine Ram)
    let behind := run tracing count (⟨q, ram⟩ : Machine Ram)
    whole.states = q :: behind.states ∧ whole.failure = behind.failure ∧
      whole.machine = behind.machine := by
  intro q whole behind
  have hstep := r.actsAs_step ram tracing hdecode himplemented
  have hnext : (⟨r, ram⟩ : Machine Ram).next tracing = ⟨q, ram⟩ := by
    have hbus := hstep.bus_eq
    rw [Bus.peek_ram, hstores] at hbus
    rw [next, Machine.step, hstep.answer_eq, hbus]
    rfl
  have hrun := run_of_ok (m := ⟨r, ram⟩) (congrArg Stepped.outcome hstep.answer_eq) count
  rw [hnext] at hrun
  dsimp only [whole]
  rw [hrun]
  exact ⟨rfl, rfl, rfl⟩

/-- **A link in a run**: behind it the run goes on with the flags that the link makes. -/
theorem run_link (tracing : Bool) {link : Link}
    (hcode : Loaded ram r.pc (0xA9 :: x :: link.opcode :: y :: rest)) (count : Nat) :
    ∃ q sum, link.Joins x y r.status sum q.status ∧ (link ≠ .compare → q.a = sum) ∧
      Loaded ram q.pc rest ∧
      let whole := run tracing (count + 2) (⟨r, ram⟩ : Machine Ram)
      let behind := run tracing count (⟨q, ram⟩ : Machine Ram)
      whole.results = q.a :: behind.results ∧ whole.failure = behind.failure ∧
        whole.machine = behind.machine := by
  obtain ⟨hload, hcode⟩ := hcode.uncons
  obtain ⟨hx, hcode⟩ := hcode.uncons
  obtain ⟨hopcode, hcode⟩ := hcode.uncons
  obtain ⟨hy, hrest⟩ := hcode.uncons
  have hbehind : ∀ pc : UInt16, pc + 1 + 1 = pc + 2 := fun pc => UInt16.add_assoc pc 1 1
  rw [hbehind r.pc] at hopcode hy hrest
  -- the upper byte is loaded
  have hdecode : Instruction.decode? (ram.get r.pc) = some ⟨.load .a, .immediate⟩ := by
    rw [hload]
    decide
  have hrun := run_of_decode? tracing hdecode rfl rfl (count + 1)
  have hloaded : let loaded := (Instruction.mk (.load .a) .immediate).outcome ram.get r
      loaded.a = x ∧ loaded.status = r.status.putNZ x ∧ loaded.pc = r.pc + 2 := by
    rw [← hx]
    exact ⟨rfl, rfl, rfl⟩
  generalize (Instruction.mk (.load .a) .immediate).outcome ram.get r = loaded at hrun hloaded
  obtain ⟨ha, hstatus, hpc⟩ := hloaded
  -- and the lower byte is joined to it
  have hdecode' : Instruction.decode? (ram.get loaded.pc) = some ⟨link.operation, .immediate⟩ := by
    rw [hpc, hopcode]
    exact link.decode?_opcode
  have hstores : (Instruction.mk link.operation .immediate).stores ram.get loaded = [] := by
    cases link <;> rfl
  have himplemented : (Instruction.mk link.operation .immediate).isImplemented := by
    cases link <;> rfl
  have hrun' := run_of_decode? tracing hdecode' himplemented hstores count
  have hjoined := link.outcome_eq ram.get loaded
  generalize (Instruction.mk link.operation .immediate).outcome ram.get loaded = q
    at hrun' hjoined
  rw [hpc, hy] at hjoined
  obtain ⟨hqa, hqstatus, hqpc⟩ := hjoined
  obtain ⟨sum, hjoins, hsum⟩ := link.exists_joins y loaded
  rw [← hqstatus, ha, hstatus] at hjoins
  rw [← hqa] at hsum
  obtain ⟨hstates, hfailure, hmachine⟩ := hrun
  obtain ⟨hstates', hfailure', hmachine'⟩ := hrun'
  refine ⟨q, sum, hjoins.of_putNZ, hsum, ?_, ?_, hfailure.trans hfailure',
    hmachine.trans hmachine'⟩
  · rwa [hqpc, ← hbehind (r.pc + 2)]
  · show Run.results (run tracing (count + 1 + 1) _) = _
    rw [Run.results, hstates, hstates']
    rfl

/-- **Every chain of sums or differences**, by induction on the bytes. -/
theorem run_chain (tracing : Bool) {link : Link} (hlink : link ≠ .compare)
    (hlength : ys.length = xs.length) (hcode : Loaded ram r.pc (chainCode link link xs ys)) :
    let whole := run tracing (2 * xs.length) (⟨r, ram⟩ : Machine Ram)
    let p := whole.machine.registers.status
    whole.failure = none ∧
      Sums xs (ys.map link.addend) (link.carryIn r.status) whole.results p ∧
      (xs ≠ [] → Signs xs.length
        (signedNumber xs + signedNumber (ys.map link.addend) + link.carryIn r.status) p) := by
  have hcarryIn : ∀ p : Status, link.carryIn p = p.carryNat := by
    intro p
    cases link with
    | add | subtract => rfl
    | compare => exact absurd rfl hlink
  induction xs generalizing ys r with
  | nil =>
    obtain rfl := List.length_eq_zero_iff.mp hlength
    rw [hcarryIn]
    exact ⟨rfl, Sums.nil r.status, fun hne => absurd rfl hne⟩
  | cons x xs ih =>
    rcases ys with _ | ⟨y, ys⟩
    · cases hlength
    · obtain ⟨q, sum, hjoins, hsum, hrest, hresults, hfailure, hmachine⟩ :=
        run_link tracing hcode (2 * xs.length)
      obtain ⟨hnone, hsums, hsigns⟩ := ih (Nat.succ.inj hlength) hrest
      rw [hcarryIn] at hsums hsigns
      intro whole p
      let behind := run tracing (2 * xs.length) (⟨q, ram⟩ : Machine Ram)
      have hwhole : whole.results = sum :: behind.results := by
        rw [← hsum hlink]
        exact hresults
      have hp : p = behind.machine.registers.status :=
        congrArg (fun m => m.registers.status) hmachine
      refine ⟨hfailure.trans hnone, ?_, fun _ => ?_⟩
      · rw [hwhole, hp]
        exact Sums.cons hjoins.sum_eq hsums
      · rw [hp]
        rcases xs with _ | ⟨x', xs⟩
        · -- the lowest bytes are the only ones, and the signs are theirs
          obtain rfl := List.length_eq_zero_iff.mp (Nat.succ.inj hlength)
          exact hjoins.signs hlink
        · have hys : ys.map link.addend ≠ [] := by
            intro hempty
            rw [List.map_eq_nil_iff.mp hempty] at hlength
            cases hlength
          exact Signs.cons (List.cons_ne_nil x' xs) hys hjoins.sum_eq
            (hsigns (List.cons_ne_nil x' xs))

/-- **Every comparison**: the lowest bytes are compared, and the others subtracted. -/
theorem run_comparison (tracing : Bool) (hlength : ys.length = xs.length) (hxs : xs ≠ [])
    (hcode : Loaded ram r.pc (chainCode .compare .subtract xs ys)) :
    let whole := run tracing (2 * xs.length) (⟨r, ram⟩ : Machine Ram)
    let p := whole.machine.registers.status
    whole.failure = none ∧
      (∃ difference, Sums xs (ys.map (~~~ ·)) 1 difference p) ∧
      (2 ≤ xs.length →
        Signs xs.length (signedNumber xs + signedNumber (ys.map (~~~ ·)) + 1) p) := by
  rcases xs with _ | ⟨x, xs⟩
  · exact absurd rfl hxs
  · rcases ys with _ | ⟨y, ys⟩
    · cases hlength
    · obtain ⟨q, sum, hjoins, -, hrest, -, hfailure, hmachine⟩ :=
        run_link tracing hcode (2 * xs.length)
      have hsubtract : Link.subtract ≠ .compare := by decide
      obtain ⟨hnone, hsums, hsigns⟩ :=
        run_chain tracing hsubtract (Nat.succ.inj hlength) hrest
      intro whole p
      let behind := run tracing (2 * xs.length) (⟨q, ram⟩ : Machine Ram)
      have hp : p = behind.machine.registers.status :=
        congrArg (fun m => m.registers.status) hmachine
      refine ⟨hfailure.trans hnone, ⟨sum :: behind.results, ?_⟩, fun htwo => ?_⟩
      · rw [hp]
        exact Sums.cons hjoins.sum_eq hsums
      · have hxs : xs ≠ [] := by
          rintro rfl
          exact absurd htwo (Nat.not_succ_le_self 1)
        have hys : ys.map (~~~ ·) ≠ [] := by
          intro hempty
          rw [List.map_eq_nil_iff.mp hempty] at hlength
          exact hxs (List.length_eq_zero_iff.mp (Nat.succ.inj hlength).symm)
        rw [hp]
        exact Signs.cons hxs hys hjoins.sum_eq (hsigns hxs)

end Machine

/-! ## Differences of numbers -/

section

variable {xs ys sum : List UInt8} {c : Nat} {p : Status}

/-- A sum with the complement is a difference, and its carry says that nothing was borrowed. -/
theorem Sums.difference (h : Sums xs (ys.map (~~~ ·)) c sum p) (hlength : ys.length = xs.length)
    (hc : c ≤ 1) :
    (number sum : Int) = ((number xs : Int) - number ys - (1 - c)) % 256 ^ xs.length ∧
      (p.get .carry = true ↔ number ys + (1 - c) ≤ number xs) := by
  have hsum := number_lt sum
  have hxs := number_lt xs
  have hcomplement := number_complement ys
  have hnumber := h.number_eq
  rw [h.length_eq] at hsum
  rw [hlength] at hcomplement
  have hpow : ((256 ^ xs.length : Nat) : Int) = 256 ^ xs.length := by push_cast; rfl
  rw [← hpow]
  generalize 256 ^ xs.length = power at *
  have hmod : ∀ borrow : Int,
      (number xs : Int) - number ys - (1 - c) = number sum + power * borrow →
      (number sum : Int) = ((number xs : Int) - number ys - (1 - c)) % power := by
    intro borrow hborrow
    rw [hborrow, Int.add_mul_emod_self_left, Int.emod_eq_of_lt (by omega) (by omega)]
  rw [Status.carryNat] at hnumber
  cases hcarry : p.get .carry with
  | false =>
    rw [hcarry, Bool.toNat_false] at hnumber
    refine ⟨hmod (-1) (by omega), ?_⟩
    simp only [Bool.false_eq_true, false_iff]
    omega
  | true =>
    rw [hcarry, Bool.toNat_true] at hnumber
    refine ⟨hmod 0 (by omega), ?_⟩
    simp only [true_iff]
    omega

end

namespace Machine

/-- **Numbers of any length are added, subtracted and compared exactly.**  Wherever the code of a
    chain lies in memory, and in every state of the processor, whatever its decimal flag shows, two
    steps for each byte run through it:

    * bytes and carry of the sum are the sum of the numbers and the carry that came in, and the
      overflow says that the sum of the signed numbers does not fit;
    * the bytes of the difference are the difference of the numbers, less one where the carry was
      clear; the carry says that nothing was borrowed, and the overflow is that of the signed
      numbers;
    * when the lowest bytes are compared and the others subtracted, the carry says that the upper
      number is not the smaller one, whatever the carry was, and for two bytes or more negative and
      overflow differ exactly where it is the smaller one of the signed numbers. -/
theorem run_carry_chain (ram : Ram) (r : Registers) (tracing : Bool) (xs ys : List UInt8)
    (hxs : xs ≠ []) (hlength : ys.length = xs.length) :
    let n := xs.length
    let c := r.status.carryNat
    let whole := run tracing (2 * n) (⟨r, ram⟩ : Machine Ram)
    let p := whole.machine.registers.status
    (Loaded ram r.pc (chainCode .add .add xs ys) →
      whole.failure = none ∧ whole.results.length = n ∧
        number whole.results + 256 ^ n * p.carryNat = number xs + number ys + c ∧
        (p.get .overflow = true ↔ Overflows n (signedNumber xs + signedNumber ys + c))) ∧
    (Loaded ram r.pc (chainCode .subtract .subtract xs ys) →
      whole.failure = none ∧ whole.results.length = n ∧
        (number whole.results : Int) = ((number xs : Int) - number ys - (1 - c)) % 256 ^ n ∧
        (p.get .carry = true ↔ number ys + (1 - c) ≤ number xs) ∧
        (p.get .overflow = true ↔ Overflows n (signedNumber xs - signedNumber ys - (1 - c)))) ∧
    (Loaded ram r.pc (chainCode .compare .subtract xs ys) →
      whole.failure = none ∧ (p.get .carry = true ↔ number ys ≤ number xs) ∧
        (2 ≤ n → ((p.get .negative ^^ p.get .overflow) = true ↔
          signedNumber xs < signedNumber ys))) := by
  intro n c whole p
  have hys : ys ≠ [] := by
    rintro rfl
    exact hxs (List.length_eq_zero_iff.mp hlength.symm)
  have hcomplement := signedNumber_complement hys
  refine ⟨?_, ?_, ?_⟩
  · intro hcode
    have hadd : Link.add ≠ .compare := by decide
    obtain ⟨hfailure, hsums, hsigns⟩ := run_chain tracing hadd hlength hcode
    have hsame : ys.map Link.add.addend = ys := List.map_id ys
    rw [hsame] at hsums hsigns
    exact ⟨hfailure, hsums.length_eq, hsums.number_eq, (hsigns hxs).overflow_iff⟩
  · intro hcode
    have hsubtract : Link.subtract ≠ .compare := by decide
    obtain ⟨hfailure, hsums, hsigns⟩ := run_chain tracing hsubtract hlength hcode
    obtain ⟨hdifference, hcarry⟩ := hsums.difference hlength r.status.carryNat_le
    have hsum : signedNumber xs + signedNumber (ys.map (~~~ ·)) + (c : Int) =
        signedNumber xs - signedNumber ys - (1 - c) := by
      rw [hcomplement]
      omega
    have hoverflow := (hsigns hxs).overflow_iff
    refine ⟨hfailure, hsums.length_eq, hdifference, hcarry, ?_⟩
    rw [← hsum]
    exact hoverflow
  · intro hcode
    obtain ⟨hfailure, ⟨_, hsums⟩, hsigns⟩ := run_comparison tracing hlength hxs hcode
    refine ⟨hfailure, (hsums.difference hlength (Nat.le_refl 1)).2, fun htwo => ?_⟩
    refine (hsigns htwo).negative_iff.trans ?_
    rw [hcomplement]
    omega

/-- `LDA #$FF`, `ADC #$01`, `LDA #$01`, `ADC #$00`: the carry goes from the lower bytes to the upper
    ones.  With a clear carry the difference of $8000 and 0 is $7FFF, which overflows; and $FFFF is
    not the smaller one of $FFFF and 1, but as a signed number it is. -/
theorem run_carry_chain_two_bytes :
    let adding : Ram := .ofBytes ⟨#[0xA9, 0xFF, 0x69, 0x01, 0xA9, 0x01, 0x69, 0x00]⟩
    let subtracting : Ram := .ofBytes ⟨#[0xA9, 0x00, 0xE9, 0x00, 0xA9, 0x80, 0xE9, 0x00]⟩
    let comparing : Ram := .ofBytes ⟨#[0xA9, 0xFF, 0xC9, 0x01, 0xA9, 0xFF, 0xE9, 0x00]⟩
    let added := run false 4 (⟨.powerUp, adding⟩ : Machine Ram)
    let subtracted := run false 4 (⟨.powerUp, subtracting⟩ : Machine Ram)
    let compared := run false 4 (⟨.powerUp, comparing⟩ : Machine Ram)
    (added.failure = none ∧ number added.results = 0x0200 ∧
        added.machine.registers.status.carryNat = 0) ∧
      (subtracted.failure = none ∧ number subtracted.results = 0x7FFF ∧
        subtracted.machine.registers.status.get .overflow = true) ∧
      compared.failure = none ∧ compared.machine.registers.status.get .carry = true ∧
        (compared.machine.registers.status.get .negative ^^
          compared.machine.registers.status.get .overflow) = true := by
  intro adding subtracting comparing added subtracted compared
  -- what else lies in memory does not matter
  have hadd : ∀ ram whole, Loaded ram 0 (chainCode .add .add [0xFF, 0x01] [0x01, 0x00]) →
      whole = run false 4 (⟨.powerUp, ram⟩ : Machine Ram) →
      whole.failure = none ∧ number whole.results = 0x0200 ∧
        whole.machine.registers.status.carryNat = 0 := by
    rintro ram whole hcode rfl
    obtain ⟨hfailure, -, hnumber, -⟩ := (run_carry_chain ram .powerUp false
      [0xFF, 0x01] [0x01, 0x00] (List.cons_ne_nil _ _) rfl).1 hcode
    have hsum : number (run false 4 (⟨.powerUp, ram⟩ : Machine Ram)).results +
        65536 * (run false 4 (⟨.powerUp, ram⟩ : Machine Ram)).machine.registers.status.carryNat =
        0x0200 := hnumber.trans (by decide)
    exact ⟨hfailure, by omega, by omega⟩
  have hsubtract : ∀ ram whole,
      Loaded ram 0 (chainCode .subtract .subtract [0x00, 0x80] [0x00, 0x00]) →
      whole = run false 4 (⟨.powerUp, ram⟩ : Machine Ram) →
      whole.failure = none ∧ number whole.results = 0x7FFF ∧
        whole.machine.registers.status.get .overflow = true := by
    rintro ram whole hcode rfl
    obtain ⟨hfailure, -, hnumber, -, hoverflow⟩ := (run_carry_chain ram .powerUp false
      [0x00, 0x80] [0x00, 0x00] (List.cons_ne_nil _ _) rfl).2.1 hcode
    have hdifference : (number (run false 4 (⟨.powerUp, ram⟩ : Machine Ram)).results : Int) =
        0x7FFF := hnumber.trans (by decide)
    refine ⟨hfailure, by omega, hoverflow.mpr ?_⟩
    rw [Overflows]
    decide
  have hcompare : ∀ ram whole,
      Loaded ram 0 (chainCode .compare .subtract [0xFF, 0xFF] [0x01, 0x00]) →
      whole = run false 4 (⟨.powerUp, ram⟩ : Machine Ram) →
      whole.failure = none ∧ whole.machine.registers.status.get .carry = true ∧
        (whole.machine.registers.status.get .negative ^^
          whole.machine.registers.status.get .overflow) = true := by
    rintro ram whole hcode rfl
    obtain ⟨hfailure, hcarry, hsign⟩ := (run_carry_chain ram .powerUp false
      [0xFF, 0xFF] [0x01, 0x00] (List.cons_ne_nil _ _) rfl).2.2 hcode
    exact ⟨hfailure, hcarry.mpr (by decide), (hsign (by decide)).mpr (by decide)⟩
  exact ⟨hadd adding added (loaded_ofBytes (by decide)) rfl,
    hsubtract subtracting subtracted (loaded_ofBytes (by decide)) rfl,
    hcompare comparing compared (loaded_ofBytes (by decide)) rfl⟩

end Machine

end Nes.Cpu
