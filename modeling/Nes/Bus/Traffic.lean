/-
  Traffic: a computation that talks to a bus, apart from any bus.

  The processor does not hold its memory.  What it does is a `Traffic` tree: it asks for a byte and
  goes on with whatever comes back, stores a byte and goes on, reports something and goes on, or is
  done.  The tree is the whole behaviour of the processor, said ONCE; `Traffic.perform` lets it act
  on any `Bus`, and lists what happened on the wires and what was reported.

  So a statement about every bus and every content is a statement about the tree (`Traffic.Always`:
  every answer satisfies it, `always_perform` carries it to each bus), and two runs of the same tree
  differ only by what their buses answer.
-/
import Nes.Bus

namespace Nes

/-- A computation that may read and write a bus and report records before it answers. -/
inductive Traffic (α : Type) where
  | done (answer : α)
  | read (addr : UInt16) (next : UInt8 → Traffic α)
  | write (addr : UInt16) (value : UInt8) (next : Traffic α)
  | report (record : Record) (next : Traffic α)

namespace Traffic

variable {α γ : Type}

/-! ## Composition -/

/-- One computation after another. -/
def bind : Traffic α → (α → Traffic γ) → Traffic γ
  | .done a, f => f a
  | .read addr next, f => .read addr fun value => (next value).bind f
  | .write addr value next, f => .write addr value (next.bind f)
  | .report record next, f => .report record (next.bind f)

instance : Monad Traffic where
  pure := .done
  bind := bind

@[simp] theorem pure_bind' (a : α) (f : α → Traffic γ) : (pure a >>= f) = f a := rfl

@[simp] theorem done_bind (a : α) (f : α → Traffic γ) : (done a >>= f) = f a := rfl

@[simp] theorem read_bind (addr : UInt16) (next : UInt8 → Traffic α) (f : α → Traffic γ) :
    (read addr next >>= f) = read addr fun value => next value >>= f := rfl

@[simp] theorem write_bind (addr : UInt16) (value : UInt8) (next : Traffic α)
    (f : α → Traffic γ) : (write addr value next >>= f) = write addr value (next >>= f) := rfl

@[simp] theorem report_bind (record : Record) (next : Traffic α) (f : α → Traffic γ) :
    (report record next >>= f) = report record (next >>= f) := rfl

theorem bind_done (t : Traffic α) : (t >>= done) = t := by
  induction t with
  | done a => rfl
  | read addr next ih => exact congrArg (read addr) (funext ih)
  | write addr value next ih => exact congrArg (write addr value) ih
  | report record next ih => exact congrArg (report record) ih

theorem bind_assoc' {δ : Type} (t : Traffic α) (f : α → Traffic γ) (g : γ → Traffic δ) :
    (t >>= f >>= g) = (t >>= fun a => f a >>= g) := by
  induction t with
  | done a => rfl
  | read addr next ih => exact congrArg (read addr) (funext ih)
  | write addr value next ih => exact congrArg (write addr value) ih
  | report record next ih => exact congrArg (report record) ih

instance : LawfulMonad Traffic :=
  LawfulMonad.mk' Traffic bind_done (fun _ _ => rfl) bind_assoc'

/-! ## Single actions -/

/-- Reads one byte. -/
def readByte (addr : UInt16) : Traffic UInt8 := .read addr .done

/-- Reads a word whose two bytes lie at the given addresses, the low one first. -/
def readWord (lowAddr highAddr : UInt16) : Traffic UInt16 := do
  let lo ← readByte lowAddr
  let hi ← readByte highAddr
  return word lo hi

/-- Stores one byte. -/
def writeByte (addr : UInt16) (value : UInt8) : Traffic Unit := .write addr value (.done ())

/-- Reports one record. -/
def note (record : Record) : Traffic Unit := .report record (.done ())

/-- Reads `count` bytes from `addr` on; `before` are those already read, the latest first. -/
def readBlockAfter (before : List UInt8) : UInt16 → Nat → Traffic (List UInt8)
  | _, 0 => return before.reverse
  | addr, count + 1 => .read addr fun value => readBlockAfter (value :: before) (addr + 1) count

/-- Reads `count` bytes from `addr` on.  Addresses wrap. -/
def readBlock (addr : UInt16) (count : Nat) : Traffic (List UInt8) := readBlockAfter [] addr count

theorem readBlockAfter_eq (before : List UInt8) (addr : UInt16) (count : Nat) :
    readBlockAfter before addr count =
      (readBlock addr count >>= fun bytes => return before.reverse ++ bytes) := by
  induction count generalizing before addr with
  | zero => simp [readBlock, readBlockAfter]
  | succ count ih =>
    simp only [readBlock, readBlockAfter, read_bind]
    congr 1
    funext value
    rw [ih (value :: before), ih [value], bind_assoc]
    simp

@[simp] theorem readBlock_zero (addr : UInt16) : readBlock addr 0 = pure [] := rfl

/-- A block is its first byte and the block behind it. -/
theorem readBlock_succ (addr : UInt16) (count : Nat) :
    readBlock addr (count + 1) = (do
      let value ← readByte addr
      let rest ← readBlock (addr + 1) count
      return value :: rest) := by
  simp only [readBlock, readBlockAfter, readByte, read_bind, done_bind]
  congr 1
  funext value
  rw [readBlockAfter_eq]
  rfl

/-- Stores the given bytes from `addr` on.  Addresses wrap. -/
def writeBlock : UInt16 → List UInt8 → Traffic Unit
  | _, [] => return ()
  | addr, value :: rest => do
    writeByte addr value
    writeBlock (addr + 1) rest

/-! ## Performing on a bus -/

/-- What came of a computation on a bus. -/
structure Performed (α β : Type) where
  /-- The answer. -/
  answer : α
  /-- The bus afterwards. -/
  bus : β
  /-- Every access, in order. -/
  accesses : List Access
  /-- Every record, of the computation and of the bus, in order. -/
  records : List Record

/-- Lets a computation act on a bus. -/
def perform {β : Type} [Bus β] : Traffic α → β → Performed α β
  | .done a, bus => ⟨a, bus, [], []⟩
  | .read addr next, bus =>
    let note := Bus.readNote bus addr
    let (value, bus) := Bus.read bus addr
    let rest := (next value).perform bus
    { rest with
      accesses := .read addr value :: rest.accesses
      records := note.toList ++ rest.records }
  | .write addr value next, bus =>
    let note := Bus.writeNote bus addr value
    let rest := next.perform (Bus.write bus addr value)
    { rest with
      accesses := .write addr value :: rest.accesses
      records := note.toList ++ rest.records }
  | .report record next, bus =>
    let rest := next.perform bus
    { rest with records := record :: rest.records }

/-- Composed computations are performed one after the other on the same bus. -/
theorem perform_bind {β : Type} [Bus β] (t : Traffic α) (f : α → Traffic γ) (bus : β) :
    (t >>= f).perform bus =
      let first := t.perform bus
      let second := (f first.answer).perform first.bus
      { second with
        accesses := first.accesses ++ second.accesses
        records := first.records ++ second.records } := by
  induction t generalizing bus with
  | done a => rfl
  | read addr next ih => simp only [read_bind, perform, ih]; simp
  | write addr value next ih => simp only [write_bind, perform, ih]; simp
  | report record next ih => simp only [report_bind, perform, ih]; simp

/-! ## Statements about every answer -/

/-- `P` holds of every answer the computation can give, whatever it reads. -/
def Always (P : α → Prop) : Traffic α → Prop
  | .done a => P a
  | .read _ next => ∀ value, (next value).Always P
  | .write _ _ next => next.Always P
  | .report _ next => next.Always P

theorem always_bind {P : γ → Prop} {t : Traffic α} {f : α → Traffic γ} :
    (t >>= f).Always P ↔ t.Always fun a => (f a).Always P := by
  induction t with
  | done a => rfl
  | read addr next ih => exact forall_congr' ih
  | write addr value next ih => exact ih
  | report record next ih => exact ih

/-- What holds of every answer holds of the answer on each bus. -/
theorem always_perform {β : Type} [Bus β] {P : α → Prop} {t : Traffic α} (h : t.Always P)
    (bus : β) : P (t.perform bus).answer := by
  induction t generalizing bus with
  | done a => exact h
  | read addr next ih => exact ih _ (h _) _
  | write addr value next ih => exact ih h _
  | report record next ih => exact ih h _

end Traffic

end Nes
