/-
  Passive buses: what a computation does on a bus that does not react to being read.

  Flat memory and the memory map of the console are passive: a read shows a byte (`Bus.peek`) and
  leaves the bus as it is.  On such a bus the reads that come before the first write are all
  answered from one and the same content, so a computation that only reads IS the list of cells it
  reads and an answer that depends on their bytes (`Performed.ofReads`), and such computations
  compose by appending their lists (`perform_bind_ofReads`).

  What a computation leaves behind is told by its accesses alone: the bus afterwards is the bus
  before with the writes made one after the other (`bus_perform`).
-/
import Nes.Bus.Ram
import Nes.Bus.Traffic
import Nes.MemoryMap

namespace Nes

/-- The byte that a bus shows at an address. -/
def Bus.peek {β : Type} [Bus β] (bus : β) (addr : UInt16) : UInt8 := (Bus.read bus addr).1

/-- A bus on which reading changes nothing, and whose notes on reads are no trace lines. -/
class PassiveBus (β : Type) [Bus β] : Prop where
  read_snd : ∀ (bus : β) addr, (Bus.read bus addr).2 = bus
  readNote_source : ∀ (bus : β) addr, ∀ note ∈ Bus.readNote bus addr, note.source ≠ .trace

instance : PassiveBus Ram where
  read_snd _ _ := rfl
  readNote_source := by
    intro ram addr note hnote
    exact nomatch hnote

instance : PassiveBus MemoryMap where
  read_snd _ _ := rfl
  readNote_source := by
    intro m addr note hnote
    have hnote' : note ∈ MemoryMap.readNote addr := hnote
    unfold MemoryMap.readNote at hnote'
    split at hnote'
    · obtain rfl : MemoryMap.undefinedRead addr = note := by simpa using hnote'
      exact nofun
    · -- the only note of a cartridge is that of a read below the program
      unfold Cartridge.readNote Nrom.readNote at hnote'
      split at hnote'
      · simp at hnote'
      · obtain rfl := Option.mem_some.mp hnote'
        exact nofun
    · simp at hnote'

@[simp] theorem Bus.peek_ram (ram : Ram) : Bus.peek ram = ram.get := rfl

@[simp] theorem Bus.peek_memoryMap (m : MemoryMap) : Bus.peek m = m.read := rfl

/-- `count` cells in a row; addresses wrap. -/
def cellsFrom (addr : UInt16) (count : Nat) : List UInt16 :=
  (List.range count).map fun k => addr + UInt16.ofNat k

@[simp] theorem cellsFrom_zero (addr : UInt16) : cellsFrom addr 0 = [] := rfl

theorem cellsFrom_succ (addr : UInt16) (count : Nat) :
    cellsFrom addr (count + 1) = addr :: cellsFrom (addr + 1) count := by
  simp only [cellsFrom, List.range_succ_eq_map, List.map_cons, List.map_map]
  congr 1
  · exact UInt16.add_zero addr
  · apply List.map_congr_left
    intro k _
    show addr + UInt16.ofNat (k + 1) = addr + 1 + UInt16.ofNat k
    rw [UInt16.ofNat_add, UInt16.add_comm (UInt16.ofNat k), ← UInt16.add_assoc]
    rfl

/-- What an access makes of a bus. -/
def Access.apply {β : Type} [Bus β] (bus : β) : Access → β
  | .read _ _ => bus
  | .write addr value => Bus.write bus addr value

namespace Traffic

variable {α β γ : Type} [Bus β]

/-! ## The parts of a composed computation -/

theorem answer_bind (t : Traffic α) (f : α → Traffic γ) (bus : β) :
    ((t >>= f).perform bus).answer =
      ((f (t.perform bus).answer).perform (t.perform bus).bus).answer := by
  rw [perform_bind]

theorem accesses_bind (t : Traffic α) (f : α → Traffic γ) (bus : β) :
    ((t >>= f).perform bus).accesses =
      (t.perform bus).accesses ++
        ((f (t.perform bus).answer).perform (t.perform bus).bus).accesses := by
  rw [perform_bind]

/-! ## Computations that only read -/

/-- What comes of reading `cells` one after the other and then answering `a`. -/
def Performed.ofReads (bus : β) (cells : List UInt16) (a : α) : Performed α β where
  answer := a
  bus := bus
  accesses := cells.map fun cell => .read cell (Bus.peek bus cell)
  records := cells.flatMap fun cell => (Bus.readNote bus cell).toList

theorem perform_pure (a : α) (bus : β) : (pure a : Traffic α).perform bus = .ofReads bus [] a := rfl

/-- **Reading composes**: of two computations that only read, one after the other, the cells are
    read one after the other. -/
theorem perform_bind_ofReads {t : Traffic α} {f : α → Traffic γ} {bus : β} {c d : List UInt16}
    {a : α} {b : γ} (ht : t.perform bus = .ofReads bus c a)
    (hf : (f a).perform bus = .ofReads bus d b) :
    (t >>= f).perform bus = .ofReads bus (c ++ d) b := by
  have hanswer : (t.perform bus).answer = a := by rw [ht]; rfl
  have hbus : (t.perform bus).bus = bus := by rw [ht]; rfl
  rw [perform_bind]
  dsimp only
  rw [hanswer, hbus, hf, ht]
  simp [Performed.ofReads]

theorem perform_map_ofReads {t : Traffic α} {bus : β} {c : List UInt16} {a : α}
    (ht : t.perform bus = .ofReads bus c a) (g : α → γ) :
    (t >>= fun a => return g a).perform bus = .ofReads bus c (g a) := by
  have h := perform_bind_ofReads (f := fun a => return g a) ht (perform_pure (g a) bus)
  rwa [List.append_nil] at h

/-! ## Reads, then stores -/

/-- The bus after stores have been made one after the other. -/
def storeAll (bus : β) (stores : List (UInt16 × UInt8)) : β :=
  stores.foldl (fun bus s => Bus.write bus s.1 s.2) bus

/-- `t` acts on `bus` by reading `cells` and then making `stores`, and answers `a`.  No instruction
    reads after it has stored, so each of them acts in this way. -/
structure ActsAs (t : Traffic α) (bus : β) (cells : List UInt16) (stores : List (UInt16 × UInt8))
    (a : α) : Prop where
  answer_eq : (t.perform bus).answer = a
  accesses_eq : (t.perform bus).accesses =
    (cells.map fun cell => .read cell (Bus.peek bus cell)) ++ stores.map fun s => .write s.1 s.2

namespace ActsAs

variable {t : Traffic α} {f : α → Traffic γ} {bus : β} {c d : List UInt16}
  {s u : List (UInt16 × UInt8)} {a : α} {b : γ}

theorem of_ofReads (h : t.perform bus = .ofReads bus c a) : t.ActsAs bus c [] a where
  answer_eq := by rw [h]; rfl
  accesses_eq := by rw [h, List.map_nil, List.append_nil]; rfl

theorem pure (a : α) (bus : β) : (Pure.pure a : Traffic α).ActsAs bus [] [] a := ⟨rfl, rfl⟩

theorem writeByte (addr : UInt16) (value : UInt8) (bus : β) :
    (Traffic.writeByte addr value).ActsAs bus [] [(addr, value)] () := ⟨rfl, rfl⟩

/-- What only stores may come behind anything. -/
theorem bind_stores (ht : t.ActsAs bus c s a) (hf : ∀ bus : β, (f a).ActsAs bus [] u b) :
    (t >>= f).ActsAs bus c (s ++ u) b := by
  have hf := hf (t.perform bus).bus
  constructor
  · rw [answer_bind, ht.answer_eq, hf.answer_eq]
  · rw [accesses_bind, ht.answer_eq, ht.accesses_eq, hf.accesses_eq]
    simp

theorem map (ht : t.ActsAs bus c s a) (g : α → γ) :
    (t >>= fun a => return g a).ActsAs bus c s (g a) := by
  have h := bind_stores (f := fun a => return g a) ht fun bus => pure (g a) bus
  rwa [List.append_nil] at h

end ActsAs

/-! ## On a passive bus -/

variable [PassiveBus β]

theorem perform_readByte (addr : UInt16) (bus : β) :
    (readByte addr).perform bus = .ofReads bus [addr] (Bus.peek bus addr) := by
  simp [readByte, perform, Performed.ofReads, Bus.peek, PassiveBus.read_snd]

theorem perform_readWord (low high : UInt16) (bus : β) :
    (readWord low high).perform bus =
      .ofReads bus [low, high] (word (Bus.peek bus low) (Bus.peek bus high)) :=
  perform_bind_ofReads (perform_readByte low bus)
    (perform_map_ofReads (perform_readByte high bus) fun hi => word (Bus.peek bus low) hi)

/-- A block is the cells in a row, and their bytes. -/
theorem perform_readBlock (addr : UInt16) (count : Nat) (bus : β) :
    (readBlock addr count).perform bus =
      .ofReads bus (cellsFrom addr count) ((cellsFrom addr count).map (Bus.peek bus)) := by
  induction count generalizing addr with
  | zero => rfl
  | succ count ih =>
    rw [readBlock_succ, cellsFrom_succ]
    exact perform_bind_ofReads (perform_readByte addr bus)
      (perform_map_ofReads (ih (addr + 1)) fun rest => Bus.peek bus addr :: rest)

/-- **The bus afterwards is the bus before with the writes made one after the other.** -/
theorem bus_perform (t : Traffic α) (bus : β) :
    (t.perform bus).bus = (t.perform bus).accesses.foldl Access.apply bus := by
  induction t generalizing bus with
  | done a => rfl
  | read addr next ih =>
    have hbus : (Bus.read bus addr).2 = bus := PassiveBus.read_snd bus addr
    simp only [perform, hbus]
    exact ih (Bus.read bus addr).1 bus
  | write addr value next ih => exact ih (Bus.write bus addr value)
  | report record next ih => exact ih bus

namespace ActsAs

variable {t : Traffic α} {f : α → Traffic γ} {bus : β} {c d : List UInt16}
  {s : List (UInt16 × UInt8)} {a : α} {b : γ}

/-- Of what a computation does, only its stores are left behind. -/
theorem bus_eq (h : t.ActsAs bus c s a) : (t.perform bus).bus = storeAll bus s := by
  have hreads : ∀ cells : List UInt16,
      (cells.map fun cell => Access.read cell (Bus.peek bus cell)).foldl Access.apply bus =
        bus := by
    intro cells
    induction cells with
    | nil => rfl
    | cons cell rest ih => exact ih
  rw [bus_perform, h.accesses_eq, List.foldl_append, hreads, List.foldl_map]
  rfl

/-- What only reads may come before anything. -/
theorem bind_reads (ht : t.ActsAs bus c [] a) (hf : (f a).ActsAs bus d s b) :
    (t >>= f).ActsAs bus (c ++ d) s b := by
  have hbus : (t.perform bus).bus = bus := ht.bus_eq
  constructor
  · rw [answer_bind, ht.answer_eq, hbus, hf.answer_eq]
  · rw [accesses_bind, ht.answer_eq, hbus, ht.accesses_eq, hf.accesses_eq]
    simp

end ActsAs

end Traffic

end Nes
