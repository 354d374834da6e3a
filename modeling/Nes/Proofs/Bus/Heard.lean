/-
  Heard: the bytes that a computation reads, whatever the bus.

  A bus may answer as it likes, and the same read now with one byte and now with another.  So on an
  arbitrary bus what a computation answers can only be told from the bytes that it was given.
  `Traffic.AlwaysFrom P` says that these bytes, in the order in which they were read, and the answer
  are related by `P`, whatever the bytes are.

  1. **Composition**: of two computations one after the other the bytes are appended
     (`alwaysFrom_bind`).
  2. **On a bus**: the relation holds between the bytes that were seen on the wires and the answer
     (`AlwaysFrom.perform`).
  3. **Scripts**: a `Script` is a bus that answers from a list of bytes, so that two reads of one
     address need not agree.
-/
import Nes.Bus.Traffic

namespace Nes

/-- The byte that an access has read. -/
def Access.heard? : Access → Option UInt8
  | .read _ value => some value
  | .write _ _ => none

/-- The bytes that were read, in order. -/
def heard (accesses : List Access) : List UInt8 := accesses.filterMap Access.heard?

namespace Traffic

variable {α γ : Type}

/-- `P` holds of the bytes read and the answer, whatever is read. -/
def AlwaysFrom (P : List UInt8 → α → Prop) : Traffic α → Prop
  | .done a => P [] a
  | .read _ next => ∀ value, (next value).AlwaysFrom fun bytes => P (value :: bytes)
  | .write _ _ next => next.AlwaysFrom P
  | .report _ next => next.AlwaysFrom P

/-- What follows from `P` holds wherever `P` does. -/
theorem AlwaysFrom.mono {P Q : List UInt8 → α → Prop} {t : Traffic α} (h : t.AlwaysFrom P)
    (hPQ : ∀ bytes a, P bytes a → Q bytes a) : t.AlwaysFrom Q := by
  induction t generalizing P Q with
  | done a => exact hPQ [] a h
  | read addr next ih => exact fun value => ih value (h value) fun bytes => hPQ (value :: bytes)
  | write addr value next ih => exact ih h hPQ
  | report record next ih => exact ih h hPQ

theorem AlwaysFrom.and {P Q : List UInt8 → α → Prop} {t : Traffic α} (hP : t.AlwaysFrom P)
    (hQ : t.AlwaysFrom Q) : t.AlwaysFrom fun bytes a => P bytes a ∧ Q bytes a := by
  induction t generalizing P Q with
  | done a => exact ⟨hP, hQ⟩
  | read addr next ih => exact fun value => ih value (hP value) (hQ value)
  | write addr value next ih => exact ih hP hQ
  | report record next ih => exact ih hP hQ

/-- What holds of every answer holds of it whatever the bytes. -/
theorem Always.alwaysFrom {P : α → Prop} {t : Traffic α} (h : t.Always P) :
    t.AlwaysFrom fun _ => P := by
  induction t with
  | done a => exact h
  | read addr next ih => exact fun value => ih value (h value)
  | write addr value next ih => exact ih h
  | report record next ih => exact ih h

/-- **Reading appends**: what is read by two computations, one after the other. -/
theorem alwaysFrom_bind {P : List UInt8 → γ → Prop} {t : Traffic α} {f : α → Traffic γ} :
    (t >>= f).AlwaysFrom P ↔
      t.AlwaysFrom fun before a => (f a).AlwaysFrom fun bytes => P (before ++ bytes) := by
  induction t generalizing P with
  | done a => rfl
  | read addr next ih => exact forall_congr' fun value => ih value
  | write addr value next ih => exact ih
  | report record next ih => exact ih

/-- On each bus `P` holds of the bytes seen on the wires and the answer. -/
theorem AlwaysFrom.perform {β : Type} [Bus β] {P : List UInt8 → α → Prop} {t : Traffic α}
    (h : t.AlwaysFrom P) (bus : β) :
    P (heard (t.perform bus).accesses) (t.perform bus).answer := by
  induction t generalizing P bus with
  | done a => exact h
  | read addr next ih => exact ih (Bus.read bus addr).1 (h _) (Bus.read bus addr).2
  | write addr value next ih => exact ih h (Bus.write bus addr value)
  | report record next ih => exact ih h bus

/-- A block of bytes is read in as many reads. -/
theorem alwaysFrom_readBlock (addr : UInt16) (count : Nat) :
    (readBlock addr count).AlwaysFrom fun bytes _ => bytes.length = count := by
  induction count generalizing addr with
  | zero => exact rfl
  | succ count ih =>
    rw [readBlock_succ, alwaysFrom_bind]
    intro value
    refine alwaysFrom_bind.mpr ((ih (addr + 1)).mono ?_)
    intro bytes block hlength
    show (value :: (bytes ++ [])).length = count + 1
    rw [List.append_nil, List.length_cons, hlength]

end Traffic

/-! ## Scripts -/

/-- A bus that answers with the bytes of a script, one after the other, whatever the address, and
    with 0 behind them. -/
structure Script where
  bytes : List UInt8

instance : Bus Script where
  read script _ := (script.bytes.headD 0, ⟨script.bytes.tail⟩)
  write script _ _ := script

end Nes
