/-
  Picture: where the picture unit is, as the lines of a trace print it.

  The picture unit draws three dots in a cycle, 341 dots in a line and 262 lines in a picture, so
  it is where it was after 89342 dots.  A trace line prints the line and the dot, which wrap at
  different periods, and behind them the cycles, which do not wrap.

  1. **Clocks**: `clock?` reads the two numbers and the cycles off their columns.  On any bus they
     are there to be read (`clock?_line`).
  2. **Places**: the two numbers are one, the dots since the picture began (`place_clockAt`); and
     as 3 has no divisor in common with 89342, it tells the cycles modulo 89342
     (`three_mul_mod_iff`).
  3. **Runs**: a step moves the clock by the cycles that it takes (`exists_moves_step`), and a run
     by those of all its steps (`exists_moves_run`).
-/
import Mathlib.Data.Nat.ModEq
import Nes.Proofs.Cpu.Attempts
import Nes.Proofs.Cpu.Columns
import Nes.Proofs.Cpu.Cycles

namespace Nes.Cpu

open Nes.Text (decimal padLeft)

/-! ## Clocks -/

/-- The number that some columns show, filled up with blanks on the left, if they show one. -/
def shownNumber? (text : String) : Option Nat :=
  let digits := text.toList.dropWhile (· == ' ')
  if digits ≠ [] ∧ digits.all Char.isDigit then some (Nat.ofDigitChars 10 digits 0) else none

/-- What a trace line prints of the picture unit and of the cycles. -/
structure Clock where
  scanline : Nat
  dot : Nat
  cycles : Nat

/-- What is read off the columns of a trace line. -/
def clock? (line : String) : Option Clock := do
  let scanline ← shownNumber? (columns 78 80 line)
  let dot ← shownNumber? (columns 82 84 line)
  let cycles ← shownNumber? (columnsFrom 90 line)
  return ⟨scanline, dot, cycles⟩

/-- The dots since the picture began. -/
def Clock.place (clock : Clock) : Nat := 341 * clock.scanline + clock.dot

/-- The clock after a number of cycles. -/
def clockAt (cycles : Nat) : Clock := ⟨3 * cycles / 341 % 262, 3 * cycles % 341, cycles⟩

/-- Digits are read again, behind any number of blanks. -/
theorem shownNumber?_of_toList {text : String} {n : Nat} (blanks : Nat)
    (h : text.toList = List.replicate blanks ' ' ++ Nat.toDigits 10 n) :
    shownNumber? text = some n := by
  have hdigits : (Nat.toDigits 10 n).all Char.isDigit := by
    rw [List.all_eq_true]
    exact fun c hc => Nat.isDigit_of_mem_toDigits (by decide) (by decide) hc
  -- the first digit is no blank, so no digit is dropped
  have hdrop : text.toList.dropWhile (· == ' ') = Nat.toDigits 10 n := by
    have hblanks : ∀ c ∈ List.replicate blanks ' ', (c == ' ') = true := by
      intro c hc
      rw [List.eq_of_mem_replicate hc]
      rfl
    rw [h, List.dropWhile_append_of_pos hblanks]
    cases hn : Nat.toDigits 10 n with
    | nil => rfl
    | cons c rest =>
      have hc : c.isDigit = true := by
        rw [hn, List.all_cons, Bool.and_eq_true] at hdigits
        exact hdigits.1
      have hblank : (c == ' ') = false := by
        rw [beq_eq_false_iff_ne]
        rintro rfl
        exact absurd hc (by decide)
      rw [List.dropWhile_cons_of_neg (by rw [hblank]; exact Bool.false_ne_true)]
  rw [shownNumber?, hdrop]
  show (if _ then _ else _) = _
  rw [if_pos ⟨Nat.toDigits_ne_nil, hdigits⟩, Nat.ofDigitChars_ten_toDigits]

theorem shownNumber?_decimal (n : Nat) : shownNumber? (decimal n) = some n :=
  shownNumber?_of_toList 0 (by rw [decimal, String.toList_ofList]; rfl)

theorem shownNumber?_padLeft (width n : Nat) :
    shownNumber? (padLeft width (decimal n)) = some n := by
  refine shownNumber?_of_toList (width - (decimal n).length) ?_
  rw [padLeft, String.toList_append, String.toList_ofList, decimal, String.toList_ofList]

namespace Registers

variable (r : Registers)

/-- On any bus the bytes of a trace line are three at most. -/
theorem alwaysMakes_traceText :
    r.traceLine.AlwaysMakes fun _ line =>
      ∃ bytes : List UInt8, bytes.length ≤ 3 ∧ line = r.traceText bytes := by
  rw [traceLine, Traffic.alwaysMakes_bind]
  intro opcode
  refine Traffic.alwaysMakes_bind.mpr
    ((Traffic.alwaysMakes_readBlock r.pc (lengthAt opcode)).mono ?_)
  rintro accesses bytes ⟨-, hlength⟩
  exact ⟨bytes, hlength ▸ lengthAt_le opcode, rfl⟩

/-- A line that is laid out for the registers shows the clock after their cycles. -/
theorem LaidOut.clock?_eq {r : Registers} {bytes : List UInt8} {line : String}
    (h : r.LaidOut bytes line) : clock? line = some (clockAt r.cycles.toNat) := by
  rw [clock?, h.scanline, h.dot, h.cycles, shownNumber?_padLeft, shownNumber?_padLeft,
    shownNumber?_decimal]
  rfl

end Registers

namespace Machine

variable {β : Type} [Bus β]

/-- The trace line of the instruction at PC. -/
def line (m : Machine β) : String := (m.registers.traceLine.perform m.bus).answer

/-- On any bus the line that a machine prints is laid out for its registers. -/
theorem exists_laidOut (m : Machine β) (hcycles : m.registers.cycles.toNat ≤ 2 ^ 64 / 3) :
    ∃ bytes, m.registers.LaidOut bytes m.line := by
  obtain ⟨bytes, hlength, hline⟩ := m.registers.alwaysMakes_traceText.perform m.bus
  refine ⟨bytes, ?_⟩
  rw [line, hline]
  exact m.registers.laidOut_traceText bytes hlength hcycles

/-- **The clock is there to be read** on every line. -/
theorem clock?_line (m : Machine β) (hcycles : m.registers.cycles.toNat ≤ 2 ^ 64 / 3) :
    clock? m.line = some (clockAt m.registers.cycles.toNat) := by
  obtain ⟨bytes, hlaid⟩ := m.exists_laidOut hcycles
  exact hlaid.clock?_eq

end Machine

/-! ## Places -/

/-- **Line and dot are one number**: the dots drawn, modulo those of a picture. -/
theorem place_clockAt (cycles : Nat) : (clockAt cycles).place = 3 * cycles % 89342 := by
  show 341 * (3 * cycles / 341 % 262) + 3 * cycles % 341 = _
  omega

/-- Three can be cancelled modulo the dots of a picture. -/
theorem three_mul_mod_iff (m n : Nat) : 3 * m % 89342 = 3 * n % 89342 ↔ m % 89342 = n % 89342 := by
  have hcoprime : Nat.gcd 89342 3 = 1 := by decide
  constructor
  · exact Nat.ModEq.cancel_left_of_coprime hcoprime
  · exact Nat.ModEq.mul_left 3

/-- The same line and dot are shown just after cycles that are the same modulo those dots. -/
theorem clockAt_alike_iff (m n : Nat) :
    ((clockAt m).scanline = (clockAt n).scanline ∧ (clockAt m).dot = (clockAt n).dot) ↔
      m % 89342 = n % 89342 := by
  have hdot : ∀ cycles, (clockAt cycles).dot < 341 := fun _ => Nat.mod_lt _ (by decide)
  have hm := hdot m
  have hn := hdot n
  rw [← three_mul_mod_iff, ← place_clockAt, ← place_clockAt, Clock.place, Clock.place]
  omega

/-- **More cycles move the clock by three dots each.** -/
theorem clockAt_add (cycles more : Nat) :
    (clockAt (cycles + more)).place = ((clockAt cycles).place + 3 * more) % 89342 ∧
      (clockAt (cycles + more)).cycles = (clockAt cycles).cycles + more := by
  rw [place_clockAt, place_clockAt]
  refine ⟨?_, rfl⟩
  omega

/-! ## Runs -/

/-- From one clock to another a number of cycles have passed. -/
def Clock.Moves (before after : Clock) (cycles : Nat) : Prop :=
  after.place = (before.place + 3 * cycles) % 89342 ∧ after.cycles = before.cycles + cycles

namespace Machine

variable {β : Type} [Bus β]

/-- A machine that takes some steps and then others takes them all. -/
theorem after_append (m : Machine β) (first second : List Bool) :
    m.after (first ++ second) = (m.after first).after second := by
  induction first generalizing m with
  | nil => rfl
  | cons tracing rest ih => exact ih (m.next tracing)

/-- What is printed moves with the cycles. -/
theorem exists_moves {m n : Machine β} {cycles : Nat} (hm : m.registers.cycles.toNat ≤ 2 ^ 64 / 3)
    (hn : n.registers.cycles.toNat ≤ 2 ^ 64 / 3)
    (h : n.registers.cycles.toNat = m.registers.cycles.toNat + cycles) :
    ∃ before after, clock? m.line = some before ∧ clock? n.line = some after ∧
      before.Moves after cycles := by
  refine ⟨_, _, m.clock?_line hm, n.clock?_line hn, ?_⟩
  rw [h]
  exact clockAt_add _ cycles

/-- **A step moves the clock by what it takes.** -/
theorem exists_moves_step {m : Machine β} {tracing : Bool} {cost : UInt8}
    (h : (m.step tracing).answer.outcome = .ok cost)
    (hm : m.registers.cycles.toNat ≤ 2 ^ 64 / 3)
    (hnext : (m.next tracing).registers.cycles.toNat ≤ 2 ^ 64 / 3) :
    ∃ before after, clock? m.line = some before ∧ clock? (m.next tracing).line = some after ∧
      before.Moves after cost.toNat := by
  obtain ⟨-, -, hmost, htook⟩ := m.step_listed h
  refine exists_moves hm hnext ?_
  show (m.step tracing).answer.registers.cycles.toNat = _
  rw [htook.cycles_eq, UInt64.toNat_add, UInt8.toNat_toUInt64]
  exact Nat.mod_eq_of_lt (by omega)

/-- **A run moves the clock by what its steps have taken.** -/
theorem exists_moves_run {m : Machine β} {traced : List Bool} {costs : List UInt8}
    (h : (m.attempts traced).map (fun a => a.stepped.outcome) = costs.map .ok)
    (hbound : m.registers.cycles.toNat + (costs.map UInt8.toNat).sum ≤ 2 ^ 64 / 3) :
    ∃ before after, clock? m.line = some before ∧ clock? (m.after traced).line = some after ∧
      before.Moves after (costs.map UInt8.toNat).sum := by
  obtain ⟨hcycles, -⟩ := m.cycles_after h (by omega)
  exact exists_moves (by omega) (by omega) hcycles

/-- The same place is printed just after cycles that are the same modulo the dots of a picture. -/
theorem columns_alike_iff {γ : Type} [Bus γ] {m : Machine β} {n : Machine γ}
    (hm : m.registers.cycles.toNat ≤ 2 ^ 64 / 3) (hn : n.registers.cycles.toNat ≤ 2 ^ 64 / 3) :
    (columns 78 80 m.line = columns 78 80 n.line ∧ columns 82 84 m.line = columns 82 84 n.line) ↔
      m.registers.cycles.toNat % 89342 = n.registers.cycles.toNat % 89342 := by
  have hinj : ∀ a b, padLeft 3 (decimal a) = padLeft 3 (decimal b) ↔ a = b := by
    intro a b
    refine ⟨fun h => ?_, fun h => by rw [h]⟩
    rw [← Option.some.injEq, ← shownNumber?_padLeft 3 a, ← shownNumber?_padLeft 3 b, h]
  obtain ⟨_, hlaidM⟩ := m.exists_laidOut hm
  obtain ⟨_, hlaidN⟩ := n.exists_laidOut hn
  rw [hlaidM.scanline, hlaidN.scanline, hlaidM.dot, hlaidN.dot, hinj, hinj]
  exact clockAt_alike_iff _ _

end Machine

/-- **The picture advances by three dots in a cycle**, on any bus, as long as its dots can be
    counted.

    * Every trace line prints a line below 262 and a dot below 341, which together are three times
      the cycles, modulo the dots of a picture, and behind them the cycles themselves.
    * Anywhere in a run, a step that takes `cost` cycles moves what is printed by `3 * cost` dots
      and `cost` cycles.
    * A run of successful steps moves it by what all of them have taken.
    * Two lines print the same place just if their cycles are the same modulo 89342. -/
theorem picture_follows_cycles {β : Type} [Bus β] :
    (∀ m : Machine β, m.registers.cycles.toNat ≤ 2 ^ 64 / 3 →
      ∃ clock, clock? m.line = some clock ∧ clock.scanline < 262 ∧ clock.dot < 341 ∧
        341 * clock.scanline + clock.dot = 3 * m.registers.cycles.toNat % 89342 ∧
        clock.cycles = m.registers.cycles.toNat) ∧
    (∀ (m : Machine β) (earlier : List Bool) (tracing : Bool) (cost : UInt8),
      ((m.after earlier).step tracing).answer.outcome = .ok cost →
      (m.after earlier).registers.cycles.toNat ≤ 2 ^ 64 / 3 →
      (m.after (earlier ++ [tracing])).registers.cycles.toNat ≤ 2 ^ 64 / 3 →
      ∃ before after, clock? (m.after earlier).line = some before ∧
        clock? (m.after (earlier ++ [tracing])).line = some after ∧
        before.Moves after cost.toNat) ∧
    (∀ (m : Machine β) (traced : List Bool) (costs : List UInt8),
      (m.attempts traced).map (fun a => a.stepped.outcome) = costs.map .ok →
      m.registers.cycles.toNat + (costs.map UInt8.toNat).sum ≤ 2 ^ 64 / 3 →
      ∃ before after, clock? m.line = some before ∧ clock? (m.after traced).line = some after ∧
        before.Moves after (costs.map UInt8.toNat).sum) ∧
    ∀ {γ : Type} [Bus γ] (m : Machine β) (n : Machine γ),
      m.registers.cycles.toNat ≤ 2 ^ 64 / 3 → n.registers.cycles.toNat ≤ 2 ^ 64 / 3 →
      ((columns 78 80 m.line = columns 78 80 n.line ∧ columns 82 84 m.line = columns 82 84 n.line) ↔
        m.registers.cycles.toNat % 89342 = n.registers.cycles.toNat % 89342) := by
  refine ⟨?_, ?_, ?_, ?_⟩
  · intro m hcycles
    exact ⟨_, m.clock?_line hcycles, Nat.mod_lt _ (by decide), Nat.mod_lt _ (by decide),
      place_clockAt _, rfl⟩
  · intro m earlier tracing cost houtcome hbefore hafter
    rw [Machine.after_append] at hafter ⊢
    exact Machine.exists_moves_step houtcome hbefore hafter
  · intro m traced costs h hbound
    exact Machine.exists_moves_run h hbound
  · intro γ _ m n hm hn
    exact Machine.columns_alike_iff hm hn

/-- `NOP` when three dots are left of the picture, and another: the first ends on the fourth dot of
    the next picture, the second six dots later.  A picture later the same place is printed. -/
theorem picture_follows_cycles_next_picture :
    let script : Script := ⟨[0xEA, 0xEA]⟩
    let m : Machine Script := ⟨{ Registers.powerUp with pc := 0xC000, cycles := 89341 }, script⟩
    let later : Machine Script :=
      ⟨{ Registers.powerUp with pc := 0xC000, cycles := 89341 + 89342 }, script⟩
    (m.attempts [false, false]).map (fun a => a.stepped.outcome) = [.ok 2, .ok 2] ∧
      (∃ before after, clock? m.line = some before ∧ clock? (m.after [false]).line = some after ∧
        before.place = 89339 ∧ after.place = 3 ∧ after.cycles = before.cycles + 2) ∧
      (∃ before after, clock? m.line = some before ∧
        clock? (m.after [false, false]).line = some after ∧ before.Moves after 4) ∧
      columns 78 80 m.line = columns 78 80 later.line ∧
      columns 82 84 m.line = columns 82 84 later.line := by
  intro script m later
  obtain ⟨hline, hstep, hrun, halike⟩ := @picture_follows_cycles Script _
  have hm : m.registers.cycles.toNat ≤ 2 ^ 64 / 3 := by decide
  have houtcomes : (m.attempts [false, false]).map (fun a => a.stepped.outcome) =
      [2, 2].map Except.ok := by decide
  obtain ⟨hfirst, -⟩ := List.cons.inj houtcomes
  obtain ⟨before, after, hbefore, hafter, hplace, hcycles⟩ :=
    hstep m [] false 2 hfirst hm (by decide)
  obtain ⟨clock, hclock, -, -, hclockPlace, -⟩ := hline m hm
  obtain rfl : before = clock := Option.some.inj (hbefore.symm.trans hclock)
  have hbeforePlace : before.place = 89339 := hclockPlace.trans (by decide)
  refine ⟨houtcomes, ⟨before, after, hbefore, hafter, hbeforePlace, ?_, hcycles⟩,
    hrun m [false, false] [2, 2] houtcomes (by decide),
    (halike m later hm (by decide)).mpr (by decide)⟩
  rw [hplace, hbeforePlace]
  decide

end Nes.Cpu
