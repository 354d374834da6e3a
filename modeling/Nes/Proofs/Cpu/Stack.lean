/-
  The stack: 256 cells in page one, as a store from which the latest byte comes back first.

  1. **The reference**: a list, the latest push first.  `Lifo.pulled` is what the pulls of a
     sequence of calls find at its head, and `staysWithin` says that no call finds the list empty
     or full.
  2. **The page**: on a bus with a `StackPage` the cells that SP can name are 256 cells of their
     own.  Flat memory has one, and so has the memory map, where it is seen four times.
  3. **The invariant**: above the cell that SP names lie, wherever SP stands, the bytes that were
     pushed and not pulled (`Machine.Holds`).  A push keeps the latest 256 of them and a pull takes
     the first away (`Holds.push`, `Holds.pull`).
  4. **Every sequence of calls**: the stack is the list as long as no more than 256 bytes are on it;
     of more, the latest 256 come back (`stack_is_lifo`).
-/
import Nes.Proofs.Bus.Cells
import Nes.Proofs.Cpu.Wires

namespace Nes.Cpu

/-- What is asked of the stack. -/
inductive StackCall where
  | push (value : UInt8)
  | pull
  deriving DecidableEq

/-! ## The reference -/

namespace Lifo

/-- The bytes pushed and not pulled, the latest first, after a call. -/
def apply (waiting : List UInt8) : StackCall → List UInt8
  | .push value => value :: waiting
  | .pull => waiting.tail

/-- The bytes pushed and not pulled after some calls. -/
def after (waiting : List UInt8) (calls : List StackCall) : List UInt8 := calls.foldl apply waiting

/-- What each pull finds: the latest byte that is waiting, if there is one. -/
def pulled (waiting : List UInt8) : List StackCall → List (Option UInt8)
  | [] => []
  | .push value :: rest => pulled (value :: waiting) rest
  | .pull :: rest => waiting.head? :: pulled waiting.tail rest

end Lifo

/-- The number of bytes that are waiting stays between 0 and `capacity`; at first there are
    `depth`. -/
def staysWithin (capacity depth : Nat) : List StackCall → Bool
  | [] => true
  | .push _ :: rest => depth < capacity && staysWithin capacity (depth + 1) rest
  | .pull :: rest => 0 < depth && staysWithin capacity (depth - 1) rest

/-! ## The page -/

/-- The cells that SP can name are 256 cells of their own, seen at the addresses of `page` only. -/
structure StackPage (β : Type) [Bus β] (page : UInt16 → Prop) : Prop where
  peek_write : ∀ (bus : β) (a b : UInt8) (value : UInt8),
    Bus.peek (Bus.write bus (stackAddress a) value) (stackAddress b) =
      if a = b then value else Bus.peek bus (stackAddress b)
  peek_write_of_not : ∀ (bus : β) (a : UInt8) (value : UInt8) (addr : UInt16), ¬ page addr →
    Bus.peek (Bus.write bus (stackAddress a) value) addr = Bus.peek bus addr

@[simp] theorem toNat_stackAddress (sp : UInt8) : (stackAddress sp).toNat = sp.toNat + 256 := by
  simp [stackAddress]

theorem stackAddress_inj {a b : UInt8} : stackAddress a = stackAddress b ↔ a = b := by
  rw [← UInt16.toNat_inj, ← UInt8.toNat_inj, toNat_stackAddress, toNat_stackAddress]
  omega

/-- Seen from the cell below, everything on the stack lies one higher. -/
theorem sub_one_add_ofNat (sp : UInt8) (n : Nat) :
    sp - 1 + UInt8.ofNat (n + 1) = sp + UInt8.ofNat n := by
  rw [UInt8.ofNat_add]
  grind

/-- Seen from the cell above, everything on the stack lies one lower. -/
theorem add_one_add_ofNat (sp : UInt8) (n : Nat) :
    sp + 1 + UInt8.ofNat n = sp + UInt8.ofNat (n + 1) := by
  rw [UInt8.ofNat_add]
  grind

/-- Every stack cell lies in page one. -/
theorem stackAddress_mem (sp : UInt8) : 0x0100 ≤ stackAddress sp ∧ stackAddress sp ≤ 0x01FF := by
  have hsp := sp.toNat_lt
  simp only [UInt16.le_iff_toNat_le, UInt16.reduceToNat, toNat_stackAddress]
  omega

/-- On flat memory the stack is page one. -/
theorem stackPage_ram : StackPage Ram fun addr => 0x0100 ≤ addr ∧ addr ≤ 0x01FF where
  peek_write ram a b value := by
    show (ram.set (stackAddress a) value).get (stackAddress b) = _
    rw [Ram.get_set]
    simp only [stackAddress_inj]
    rfl
  peek_write_of_not ram a value addr hnot := by
    have hne : stackAddress a ≠ addr := by
      rintro rfl
      exact hnot (stackAddress_mem a)
    show (ram.set (stackAddress a) value).get addr = _
    rw [Ram.get_set, if_neg hne]
    rfl

/-- A stack cell of the memory map is a cell of RAM. -/
theorem cellAt_stackAddress (sp : UInt8) {cell : Fin 2080} :
    MemoryMap.cellAt (stackAddress sp) = some cell ↔ cell.val = sp.toNat + 256 := by
  have hsp := sp.toNat_lt
  rw [MemoryMap.cellAt_eq_some_iff, toNat_stackAddress]
  omega

/-- On the memory map the stack is page one of RAM, wherever that is seen. -/
theorem stackPage_memoryMap : StackPage MemoryMap fun addr =>
    addr < 0x2000 ∧ 0x0100 ≤ addr % 0x0800 ∧ addr % 0x0800 ≤ 0x01FF where
  peek_write map a b value := by
    have ha := a.toNat_lt
    show (map.write (stackAddress a) value).read (stackAddress b) = _
    rw [MemoryMap.read_write]
    simp only [MemoryMap.sameCell_iff, cellAt_stackAddress]
    have hsame : (∃ cell : Fin 2080, cell.val = a.toNat + 256 ∧ cell.val = b.toNat + 256) ↔
        a = b := by
      rw [← UInt8.toNat_inj]
      constructor
      · rintro ⟨cell, hcell, hcell'⟩
        omega
      · intro hab
        exact ⟨⟨a.toNat + 256, by omega⟩, rfl, congrArg (· + 256) hab⟩
    simp only [hsame]
    rfl
  peek_write_of_not map a value addr hnot := by
    have ha := a.toNat_lt
    show (map.write (stackAddress a) value).read addr = _
    have hother : ¬ ∃ cell, MemoryMap.cellAt (stackAddress a) = some cell ∧
        MemoryMap.cellAt addr = some cell := by
      rintro ⟨cell, hcell, hcell'⟩
      rw [cellAt_stackAddress] at hcell
      rw [MemoryMap.cellAt_eq_some_iff] at hcell'
      simp only [UInt16.lt_iff_toNat_lt, UInt16.le_iff_toNat_le, UInt16.toNat_mod,
        UInt16.reduceToNat] at hnot
      omega
    rw [MemoryMap.read_write, if_neg (mt (MemoryMap.sameCell_iff _ _).mp hother)]
    rfl

/-! ## Calls -/

namespace Machine

variable {β : Type} [Bus β]

/-- The machine after a call. -/
def stack (m : Machine β) : StackCall → Machine β
  | .push value =>
    let done := (m.registers.push value).perform m.bus
    ⟨done.answer, done.bus⟩
  | .pull =>
    let done := m.registers.pull.perform m.bus
    ⟨done.answer.2, done.bus⟩

/-- The machine after some calls. -/
def stackAll (m : Machine β) (calls : List StackCall) : Machine β := calls.foldl stack m

/-- The bytes that the pulls among some calls give, in order. -/
def pulled (m : Machine β) : List StackCall → List UInt8
  | [] => []
  | .push value :: rest => (m.stack (.push value)).pulled rest
  | .pull :: rest => (m.registers.pull.perform m.bus).answer.1 :: (m.stack .pull).pulled rest

theorem pulled_append (m : Machine β) (calls more : List StackCall) :
    m.pulled (calls ++ more) = m.pulled calls ++ (m.stackAll calls).pulled more := by
  induction calls generalizing m with
  | nil => rfl
  | cons call rest ih =>
    cases call with
    | push value => exact ih (m.stack (.push value))
    | pull => exact congrArg (_ :: ·) (ih (m.stack .pull))

theorem pulled_pushes (m : Machine β) (values : List UInt8) :
    m.pulled (values.map .push) = [] := by
  induction values generalizing m with
  | nil => rfl
  | cons value rest ih => exact ih (m.stack (.push value))

theorem stack_push (m : Machine β) (value : UInt8) :
    m.stack (.push value) =
      ⟨{ m.registers with sp := m.registers.sp - 1 },
        Bus.write m.bus (stackAddress m.registers.sp) value⟩ := rfl

theorem stack_pull [PassiveBus β] (m : Machine β) :
    m.stack .pull = ⟨{ m.registers with sp := m.registers.sp + 1 }, m.bus⟩ := by
  have hbus := PassiveBus.read_snd m.bus (stackAddress (m.registers.sp + 1))
  show Machine.mk _ (Bus.read m.bus (stackAddress (m.registers.sp + 1))).2 = _
  rw [hbus]
  rfl

/-! ## The invariant -/

/-- Above the cell that SP names lie the given bytes, the first one next to it. -/
structure Holds (m : Machine β) (waiting : List UInt8) : Prop where
  length_le : waiting.length ≤ 256
  onStack_eq : ∀ i (h : i < waiting.length),
    m.registers.onStack (Bus.peek m.bus) (UInt8.ofNat (i + 1)) = waiting[i]

namespace Holds

variable {page : UInt16 → Prop} {m : Machine β} {waiting : List UInt8}

theorem nil (m : Machine β) : m.Holds [] := ⟨Nat.zero_le 256, nofun⟩

/-- **A push** puts a byte on the stack; of 256 that were there the oldest is lost. -/
theorem push (hpage : StackPage β page) (h : m.Holds waiting) (value : UInt8) :
    (m.stack (.push value)).Holds ((value :: waiting).take 256) where
  length_le := List.length_take_le 256 _
  onStack_eq i hi := by
    rw [stack_push, List.getElem_take]
    show Bus.peek (Bus.write m.bus _ value) (stackAddress (m.registers.sp - 1 + _)) = _
    rw [hpage.peek_write]
    rw [List.length_take, List.length_cons] at hi
    cases i with
    | zero =>
      have hsp : m.registers.sp = m.registers.sp - 1 + UInt8.ofNat (0 + 1) :=
        (UInt8.sub_add_cancel m.registers.sp 1).symm
      rw [if_pos hsp]
      rfl
    | succ i =>
      -- fewer than 256 cells up is another cell
      have hne : m.registers.sp ≠ m.registers.sp + UInt8.ofNat (i + 1) := by
        rw [ne_eq, ← UInt8.toNat_inj, UInt8.toNat_add, UInt8.toNat_ofNat']
        have := m.registers.sp.toNat_lt
        omega
      rw [sub_one_add_ofNat, if_neg hne]
      exact h.onStack_eq i (by omega)

/-- **A pull** takes the byte that was pushed last. -/
theorem pull [PassiveBus β] {value : UInt8} (h : m.Holds (value :: waiting)) :
    (m.registers.pull.perform m.bus).answer.1 = value ∧ (m.stack .pull).Holds waiting := by
  refine ⟨h.onStack_eq 0 (Nat.zero_lt_succ _), Nat.le_of_succ_le h.length_le, ?_⟩
  intro i hi
  rw [stack_pull]
  show Bus.peek m.bus (stackAddress (m.registers.sp + 1 + _)) = _
  rw [add_one_add_ofNat]
  exact h.onStack_eq (i + 1) (Nat.succ_lt_succ hi)

/-- Any number of pushes: the latest 256 bytes are on the stack. -/
theorem pushes (hpage : StackPage β page) (h : m.Holds waiting) (values : List UInt8) :
    (m.stackAll (values.map .push)).Holds ((values.reverse ++ waiting).take 256) := by
  induction values generalizing m waiting with
  | nil => rwa [List.reverse_nil, List.nil_append, List.take_of_length_le h.length_le]
  | cons value rest ih =>
    have hrest := ih (h.push hpage value)
    rw [List.reverse_cons, List.append_assoc, List.singleton_append]
    have hlatest : (rest.reverse ++ (value :: waiting).take 256).take 256 =
        (rest.reverse ++ value :: waiting).take 256 := by
      rw [List.take_append, List.take_append, List.take_take]
      congr 2
      omega
    rw [← hlatest]
    exact hrest

/-- As many pulls as there are bytes give the latest ones back. -/
theorem pulls [PassiveBus β] (h : m.Holds waiting) {k : Nat} (hk : k ≤ waiting.length) :
    m.pulled (List.replicate k .pull) = waiting.take k := by
  induction k generalizing m waiting with
  | zero => rfl
  | succ k ih =>
    cases waiting with
    | nil => exact absurd hk (Nat.not_succ_le_zero k)
    | cons value rest =>
      obtain ⟨hvalue, hrest⟩ := h.pull
      rw [List.replicate_succ, pulled, hvalue, List.take_succ_cons,
        ih hrest (Nat.le_of_succ_le_succ hk)]

/-- **Calls in any order**, as long as they find the stack neither empty nor full, are calls to the
    list: the pulls give the latest byte that waits, and SP moves by the bytes that came or went. -/
theorem calls [PassiveBus β] (hpage : StackPage β page) (h : m.Holds waiting)
    {calls : List StackCall} (hwithin : staysWithin 256 waiting.length calls) :
    (m.pulled calls).map some = Lifo.pulled waiting calls ∧
      (m.stackAll calls).registers =
        { m.registers with
          sp := m.registers.sp + UInt8.ofNat waiting.length -
            UInt8.ofNat (Lifo.after waiting calls).length } := by
  induction calls generalizing m waiting with
  | nil =>
    refine ⟨rfl, ?_⟩
    show m.registers = { m.registers with
      sp := m.registers.sp + UInt8.ofNat waiting.length - UInt8.ofNat waiting.length }
    rw [UInt8.add_sub_cancel]
  | cons call rest ih =>
    cases call with
    | push value =>
      obtain ⟨hroom, hrest⟩ := Bool.and_eq_true_iff.mp hwithin
      have hlength : (value :: waiting).length ≤ 256 := of_decide_eq_true hroom
      have hpushed := h.push hpage value
      rw [List.take_of_length_le hlength] at hpushed
      obtain ⟨hpulled, hregisters⟩ := ih hpushed hrest
      refine ⟨hpulled, hregisters.trans ?_⟩
      rw [stack_push, List.length_cons, sub_one_add_ofNat]
      rfl
    | pull =>
      obtain ⟨hsome, hrest⟩ := Bool.and_eq_true_iff.mp hwithin
      cases waiting with
      | nil => cases hsome
      | cons value waiting =>
        obtain ⟨hvalue, hholds⟩ := h.pull
        obtain ⟨hpulled, hregisters⟩ := ih hholds hrest
        refine ⟨?_, hregisters.trans ?_⟩
        · rw [pulled, hvalue, List.map_cons, hpulled]
          rfl
        · rw [stack_pull, List.length_cons, ← add_one_add_ofNat]
          rfl

end Holds

/-- No call changes what is seen outside the page. -/
theorem peek_stackAll [PassiveBus β] {page : UInt16 → Prop} (hpage : StackPage β page)
    (m : Machine β) (calls : List StackCall) {addr : UInt16} (hnot : ¬ page addr) :
    Bus.peek (m.stackAll calls).bus addr = Bus.peek m.bus addr := by
  induction calls generalizing m with
  | nil => rfl
  | cons call rest ih =>
    refine (ih (m.stack call)).trans ?_
    cases call with
    | push value => exact hpage.peek_write_of_not m.bus m.registers.sp value addr hnot
    | pull => rw [stack_pull]

/-! ## Every sequence of calls -/

/-- The stack of a machine is a store of 256 bytes from which the latest comes back first, and lies
    in the given page. -/
structure HasLifoStack (m : Machine β) (page : UInt16 → Prop) : Prop where
  /-- As long as the calls find it neither empty nor full, each pull gives the latest byte that was
      pushed and not pulled. -/
  pulled_eq : ∀ calls, staysWithin 256 0 calls → (m.pulled calls).map some = Lifo.pulled [] calls
  /-- SP has moved down by the bytes that are on it, and no other register has changed. -/
  registers_eq : ∀ calls, staysWithin 256 0 calls →
    (m.stackAll calls).registers =
      { m.registers with sp := m.registers.sp - UInt8.ofNat (Lifo.after [] calls).length }
  /-- Outside the page nothing changes. -/
  peek_eq : ∀ calls addr, ¬ page addr →
    Bus.peek (m.stackAll calls).bus addr = Bus.peek m.bus addr
  /-- However many bytes were pushed, the latest 256 come back, in reverse. -/
  pulled_pushes : ∀ values : List UInt8, ∀ k ≤ 256, k ≤ values.length →
    m.pulled (values.map .push ++ List.replicate k .pull) = values.reverse.take k

/-- Wherever SP stands, it does so on a bus with a stack page. -/
theorem hasLifoStack_of_stackPage [PassiveBus β] {page : UInt16 → Prop} (hpage : StackPage β page)
    (m : Machine β) : m.HasLifoStack page where
  pulled_eq calls hwithin := ((Holds.nil m).calls hpage hwithin).1
  registers_eq calls hwithin := by
    have hsp : m.registers.sp + UInt8.ofNat ([] : List UInt8).length = m.registers.sp :=
      UInt8.add_zero m.registers.sp
    rw [((Holds.nil m).calls hpage hwithin).2, hsp]
  peek_eq calls addr hnot := m.peek_stackAll hpage calls hnot
  pulled_pushes values k hk hlength := by
    have hholds := (Holds.nil m).pushes hpage values
    rw [List.append_nil] at hholds
    have hthere : k ≤ (values.reverse.take 256).length := by
      rw [List.length_take, List.length_reverse]
      exact Nat.le_min.mpr ⟨hk, hlength⟩
    rw [pulled_append, pulled_pushes, List.nil_append, hholds.pulls hthere, List.take_take,
      Nat.min_eq_left hk]

/-- **The stack is a store of 256 bytes, the latest first**, from every state of the processor: on
    flat memory it lies in page one, and on the memory map in page one of RAM, which is seen four
    times. -/
theorem stack_is_lifo :
    (∀ m : Machine Ram, m.HasLifoStack fun addr => 0x0100 ≤ addr ∧ addr ≤ 0x01FF) ∧
      ∀ m : Machine MemoryMap, m.HasLifoStack fun addr =>
        addr < 0x2000 ∧ 0x0100 ≤ addr % 0x0800 ∧ addr % 0x0800 ≤ 0x01FF :=
  ⟨hasLifoStack_of_stackPage stackPage_ram, hasLifoStack_of_stackPage stackPage_memoryMap⟩

/-- From SP = $01 the third byte is pushed to $01FF, behind which SP stands at $FE. -/
theorem stack_is_lifo_around_page_one :
    let m : Machine Ram := ⟨{ Registers.powerUp with sp := 0x01 }, .ofBytes ⟨#[]⟩⟩
    let calls := [.push 0x10, .push 0x20, .push 0x30]
    m.pulled (calls ++ [.pull, .push 0x40, .pull, .pull, .pull]) = [0x30, 0x40, 0x20, 0x10] ∧
      (m.stackAll calls).registers.sp = 0xFE := by
  intro m calls
  have hstack := stack_is_lifo.1 m
  constructor
  · have hpulled := hstack.pulled_eq (calls ++ [.pull, .push 0x40, .pull, .pull, .pull]) rfl
    exact (List.map_inj_right fun _ _ => Option.some.inj).mp hpulled
  · rw [hstack.registers_eq calls rfl]
    rfl

end Machine

end Nes.Cpu
