/-
  Flags: the status register as eight independent booleans.

  The register is changed by three kinds of calls: a value is put into one flag, zero and negative
  are set from a byte, or a whole byte is loaded.  `Call.assigned?` says which bits a call assigns
  a value to, and which value.

  1. **Getters**: each flag shows a bit of the register, and the register is made up of what the
     flags show (`get_eq_bit`, `toNat_byte`).
  2. **One call**: a bit takes the value that the call assigns to it, or else keeps its own
     (`bit_apply`); so calls that assign to no bit in common commute (`apply_comm`).
  3. **History**: after any number of calls a bit has the value assigned to it last (`bit_after`).
-/
import Nes.Cpu.Status
import Nes.Proofs.Cartridge.Acceptance

namespace Nes.Cpu

open Nes.Cartridge (testBit_eq_testBit_toNat)

namespace Status

/-! ## Calls -/

/-- A call that changes the register. -/
inductive Call where
  /-- Puts a value into a flag. -/
  | put (f : Flag) (on : Bool)
  /-- Sets zero and negative from a byte. -/
  | putNZ (v : UInt8)
  /-- Loads a whole byte. -/
  | load (byte : UInt8)

/-- The register after a call. -/
def apply (p : Status) : Call → Status
  | .put f on => p.put f on
  | .putNZ v => p.putNZ v
  | .load byte => ⟨byte⟩

/-- The register after some calls. -/
def after (p : Status) (past : List Call) : Status := past.foldl apply p

/-- Bit `i` of the register. -/
def bit (p : Status) (i : Fin 8) : Bool := p.byte.toNat.testBit i

/-- The value that a call assigns to bit `i`, if it assigns one. -/
def Call.assigned? (i : Fin 8) : Call → Option Bool
  | .put f on => if f.bit = i then some on else none
  | .putNZ v =>
    if i = Flag.zero.bit then some (v = 0)
    else if i = Flag.negative.bit then some (v.toNat.testBit 7)
    else none
  | .load byte => some (byte.toNat.testBit i)

/-- The value that was assigned to bit `i` last, if there was one. -/
def latest (past : List Call) (i : Fin 8) : Option Bool :=
  past.reverse.findSome? (Call.assigned? i)

/-! ## Getters -/

/-- A flag shows its bit. -/
theorem get_eq_bit (p : Status) (f : Flag) : p.get f = p.bit f.bit :=
  testBit_eq_testBit_toNat p.byte f.bit

/-- **The register is made up of its flags**, each of which counts what its bit counts. -/
theorem toNat_byte (p : Status) :
    p.byte.toNat =
      (p.get .carry).toNat + 2 * (p.get .zero).toNat + 4 * (p.get .interruptDisable).toNat +
        8 * (p.get .decimal).toNat + 16 * (p.get .breakCommand).toNat +
        32 * (p.get .unused).toNat + 64 * (p.get .overflow).toNat +
        128 * (p.get .negative).toNat := by
  have hbyte := p.byte.toNat_lt
  have hflag : ∀ (f : Flag) (weight : Nat), 2 ^ f.bit.val = weight →
      (p.get f).toNat = p.byte.toNat / weight % 2 := by
    rintro f weight rfl
    rw [get_eq_bit, bit, Nat.toNat_testBit]
  rw [hflag .carry 1 rfl, hflag .zero 2 rfl, hflag .interruptDisable 4 rfl, hflag .decimal 8 rfl,
    hflag .breakCommand 16 rfl, hflag .unused 32 rfl, hflag .overflow 64 rfl,
    hflag .negative 128 rfl]
  omega

/-! ## One call -/

/-- **A bit takes what a call assigns to it**, or else stays as it was. -/
theorem bit_apply (p : Status) (call : Call) (i : Fin 8) :
    (p.apply call).bit i = (call.assigned? i).getD (p.bit i) := by
  obtain ⟨g, rfl⟩ : ∃ g : Flag, g.bit = i := ⟨Flag.ofBit i, Flag.bit_ofBit i⟩
  cases call with
  | put f on =>
    rw [← get_eq_bit, ← get_eq_bit, apply, get_put, Call.assigned?]
    by_cases h : f = g
    · rw [if_pos h, if_pos (congrArg Flag.bit h)]
      rfl
    · rw [if_neg h, if_neg (mt Flag.bit_inj.mp h)]
      rfl
  | putNZ v =>
    rw [← get_eq_bit, ← get_eq_bit, apply, get_putNZ, testBit_eq_testBit_toNat]
    cases g <;> rfl
  | load byte => rfl

/-- Two registers with the same bits are equal. -/
theorem ext_bit {p q : Status} (h : ∀ i, p.bit i = q.bit i) : p = q := by
  refine ext_get fun f => ?_
  rw [get_eq_bit, get_eq_bit, h]

/-- Calls that assign to no bit in common. -/
def Call.Apart (c d : Call) : Prop := ∀ i, c.assigned? i = none ∨ d.assigned? i = none

theorem Call.put_apart {f g : Flag} (h : f ≠ g) (a b : Bool) : (put f a).Apart (put g b) := by
  intro i
  by_cases hf : f.bit = i
  · have hg : g.bit ≠ i := fun hg => h (Flag.bit_inj.mp (hf.trans hg.symm))
    exact .inr (if_neg hg)
  · exact .inl (if_neg hf)

/-- **Calls that assign to no bit in common commute.** -/
theorem apply_comm (p : Status) {c d : Call} (h : c.Apart d) :
    (p.apply c).apply d = (p.apply d).apply c := by
  refine ext_bit fun i => ?_
  rw [bit_apply, bit_apply, bit_apply, bit_apply]
  rcases h i with hc | hd
  · rw [hc, Option.getD_none, Option.getD_none]
  · rw [hd, Option.getD_none, Option.getD_none]

/-! ## History -/

theorem latest_cons (call : Call) (rest : List Call) (i : Fin 8) :
    latest (call :: rest) i = (latest rest i).or (call.assigned? i) := by
  rw [latest, List.reverse_cons, List.findSome?_append, List.findSome?_singleton]
  rfl

/-- **A bit has the value that was assigned to it last**, or else the one it began with. -/
theorem bit_after (p : Status) (past : List Call) (i : Fin 8) :
    (p.after past).bit i = (latest past i).getD (p.bit i) := by
  induction past generalizing p with
  | nil => rfl
  | cons call rest ih =>
    show ((p.apply call).after rest).bit i = _
    rw [ih, bit_apply, latest_cons]
    cases latest rest i with
    | none => rfl
    | some on => rfl

end Status

/-- **The status register is eight independent booleans.**

    * After any history of calls each bit has the value that was assigned to it last, or else the
      one it began with: setting zero and negative from a byte assigns to these two whether the
      byte is 0 and its bit 7, and loading a byte assigns to all eight.
    * Each flag shows its bit, and the register is made up of the eight of them, from carry, which
      counts one, to negative, which counts 128.
    * Calls on different flags commute, and so do any two that assign to no bit in common. -/
theorem flags_are_independent :
    (∀ (p : Status) (past : List Status.Call) (i : Fin 8),
      (p.after past).byte.toNat.testBit i =
        (Status.latest past i).getD (p.byte.toNat.testBit i)) ∧
    (∀ (p : Status) (f : Flag), p.get f = p.byte.toNat.testBit f.bit) ∧
    (∀ p : Status,
      p.byte.toNat =
        (p.get .carry).toNat + 2 * (p.get .zero).toNat + 4 * (p.get .interruptDisable).toNat +
          8 * (p.get .decimal).toNat + 16 * (p.get .breakCommand).toNat +
          32 * (p.get .unused).toNat + 64 * (p.get .overflow).toNat +
          128 * (p.get .negative).toNat) ∧
    (∀ (p : Status) (f g : Flag) (a b : Bool), f ≠ g →
      (p.put f a).put g b = (p.put g b).put f a) ∧
    ∀ (p : Status) (c d : Status.Call), c.Apart d →
      (p.apply c).apply d = (p.apply d).apply c := by
  refine ⟨Status.bit_after, Status.get_eq_bit, Status.toNat_byte, ?_, ?_⟩
  · intro p f g a b h
    exact p.apply_comm (Status.Call.put_apart h a b)
  · intro p c d h
    exact p.apply_comm h

/-- After $A4 is loaded, zero and negative are set from $00 and carry is put on, the register is
    $27, and it would be if the last two calls had come the other way round. -/
theorem flags_are_independent_after_load :
    let p : Status := ⟨0xA4⟩
    let past : List Status.Call := [.load 0xA4, .putNZ 0x00, .put .carry true]
    (Status.mk 0xFF).after past = ⟨0x27⟩ ∧ Status.latest past 7 = some false ∧
      ((Status.mk 0xFF).after past).byte.toNat.testBit 7 = false ∧
      (p.put .zero true).put .carry true = (p.put .carry true).put .zero true ∧
      (p.apply (.putNZ 0x00)).apply (.put .carry true) =
        (p.apply (.put .carry true)).apply (.putNZ 0x00) := by
  intro p past
  obtain ⟨hhistory, -, -, hflags, hcalls⟩ := flags_are_independent
  have hlatest : Status.latest past 7 = some false := by decide
  have hapart : (Status.Call.putNZ 0x00).Apart (.put .carry true) := by
    unfold Status.Call.Apart
    decide
  refine ⟨by decide, hlatest, ?_, hflags p .zero .carry true true (by decide),
    hcalls p _ _ hapart⟩
  exact (hhistory ⟨0xFF⟩ past 7).trans (by rw [hlatest]; rfl)

end Nes.Cpu
