/-
  Making: the accesses that a computation makes, whatever the bus.

  A bus may answer as it likes, so which accesses are made is not known beforehand.  But what each
  of them is, is settled by the answers to those before it.  `Traffic.AlwaysMakes P` says that the
  accesses, in order and with their bytes, and the answer are related by `P`, whatever the bytes.

  * Of two computations one after the other the accesses are appended (`alwaysMakes_bind`).
  * On each bus the relation holds between what went over the wires and the answer
    (`AlwaysMakes.perform`).
  * A block is read from its address on (`alwaysMakes_readBlock`): `readsFrom` are the accesses that
    give the bytes of a block, one after the other.
  * Where reading changes nothing, the bytes read are those of the memory
    (`ActsAs.read_shows`, `eq_map_of_readsFrom`).
-/
import Nes.Proofs.Bus.Passive

namespace Nes

/-! ## Reads -/

/-- The accesses by which bytes are read one after the other from an address on.  Addresses wrap. -/
def readsFrom : UInt16 → List UInt8 → List Access
  | _, [] => []
  | addr, value :: rest => .read addr value :: readsFrom (addr + 1) rest

/-- The accesses by which bytes are read from the given cells. -/
def readsAt (cells : List UInt16) (bytes : List UInt8) : List Access :=
  List.zipWith Access.read cells bytes

/-- What is read from an address on, is read from cells in a row. -/
theorem readsFrom_eq_readsAt (addr : UInt16) (bytes : List UInt8) :
    readsFrom addr bytes = readsAt (cellsFrom addr bytes.length) bytes := by
  induction bytes generalizing addr with
  | nil => rfl
  | cons value rest ih =>
    rw [readsFrom, ih, List.length_cons, cellsFrom_succ]
    rfl

namespace Traffic

variable {α γ : Type}

/-! ## Every answer and what led to it -/

/-- `P` holds of the accesses made and the answer, whatever is read. -/
def AlwaysMakes (P : List Access → α → Prop) : Traffic α → Prop
  | .done a => P [] a
  | .read addr next =>
    ∀ value, (next value).AlwaysMakes fun accesses => P (.read addr value :: accesses)
  | .write addr value next => next.AlwaysMakes fun accesses => P (.write addr value :: accesses)
  | .report _ next => next.AlwaysMakes P

/-- What follows from `P` holds wherever `P` does. -/
theorem AlwaysMakes.mono {P Q : List Access → α → Prop} {t : Traffic α} (h : t.AlwaysMakes P)
    (hPQ : ∀ accesses a, P accesses a → Q accesses a) : t.AlwaysMakes Q := by
  induction t generalizing P Q with
  | done a => exact hPQ [] a h
  | read addr next ih =>
    exact fun value => ih value (h value) fun accesses => hPQ (.read addr value :: accesses)
  | write addr value next ih => exact ih h fun accesses => hPQ (.write addr value :: accesses)
  | report record next ih => exact ih h hPQ

/-- **Accesses append**: what is made by two computations, one after the other. -/
theorem alwaysMakes_bind {P : List Access → γ → Prop} {t : Traffic α} {f : α → Traffic γ} :
    (t >>= f).AlwaysMakes P ↔
      t.AlwaysMakes fun before a => (f a).AlwaysMakes fun accesses => P (before ++ accesses) := by
  induction t generalizing P with
  | done a => rfl
  | read addr next ih => exact forall_congr' fun value => ih value
  | write addr value next ih => exact ih
  | report record next ih => exact ih

/-- On each bus `P` holds of what went over the wires and the answer. -/
theorem AlwaysMakes.perform {β : Type} [Bus β] {P : List Access → α → Prop} {t : Traffic α}
    (h : t.AlwaysMakes P) (bus : β) : P (t.perform bus).accesses (t.perform bus).answer := by
  induction t generalizing P bus with
  | done a => exact h
  | read addr next ih => exact ih (Bus.read bus addr).1 (h _) (Bus.read bus addr).2
  | write addr value next ih => exact ih h (Bus.write bus addr value)
  | report record next ih => exact ih h bus

/-- A block is read from its address on, in as many reads as it has bytes. -/
theorem alwaysMakes_readBlock (addr : UInt16) (count : Nat) :
    (readBlock addr count).AlwaysMakes fun accesses bytes =>
      accesses = readsFrom addr bytes ∧ bytes.length = count := by
  induction count generalizing addr with
  | zero => exact ⟨rfl, rfl⟩
  | succ count ih =>
    rw [readBlock_succ, alwaysMakes_bind]
    intro value
    refine alwaysMakes_bind.mpr ((ih (addr + 1)).mono ?_)
    rintro accesses rest ⟨rfl, rfl⟩
    show .read addr value :: (readsFrom (addr + 1) rest ++ []) = _ ∧ _
    rw [List.append_nil]
    exact ⟨rfl, rfl⟩

/-! ## Where reading changes nothing -/

/-- What reads first and then stores, reads the bytes that the bus shows beforehand. -/
theorem ActsAs.read_shows {β : Type} [Bus β] {t : Traffic α} {bus : β} {cells : List UInt16}
    {stores : List (UInt16 × UInt8)} {a : α} (h : t.ActsAs bus cells stores a) {cell : UInt16}
    {value : UInt8} (hmem : .read cell value ∈ (t.perform bus).accesses) :
    value = Bus.peek bus cell := by
  rw [h.accesses_eq] at hmem
  rcases List.mem_append.mp hmem with hread | hstore
  · obtain ⟨other, -, heq⟩ := List.mem_map.mp hread
    obtain ⟨rfl, rfl⟩ := Access.read.inj heq
    rfl
  · obtain ⟨s, -, heq⟩ := List.mem_map.mp hstore
    cases heq

end Traffic

section

variable {mem : UInt16 → UInt8}

/-- Bytes that have been read as a memory shows them are the bytes of that memory. -/
theorem eq_map_of_readsAt {cells : List UInt16} {bytes : List UInt8}
    (hlength : bytes.length = cells.length)
    (h : ∀ cell value, .read cell value ∈ readsAt cells bytes → value = mem cell) :
    bytes = cells.map mem := by
  induction cells generalizing bytes with
  | nil => exact List.eq_nil_of_length_eq_zero hlength
  | cons cell cells ih =>
    cases bytes with
    | nil => exact nomatch hlength
    | cons value rest =>
      have hrest := ih (Nat.succ.inj hlength) fun c v hmem => h c v (List.mem_cons_of_mem _ hmem)
      rw [List.map_cons, ← hrest, h cell value List.mem_cons_self]

theorem eq_map_of_readsFrom {addr : UInt16} {bytes : List UInt8} {count : Nat}
    (hlength : bytes.length = count)
    (h : ∀ cell value, .read cell value ∈ readsFrom addr bytes → value = mem cell) :
    bytes = (cellsFrom addr count).map mem := by
  subst hlength
  rw [readsFrom_eq_readsAt] at h
  refine eq_map_of_readsAt ?_ h
  rw [cellsFrom, List.length_map, List.length_range]

end

end Nes
