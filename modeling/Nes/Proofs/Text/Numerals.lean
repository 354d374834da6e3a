/-
  Numerals: which texts are read as which numbers.

  1. **Digits**: the digits stand in two rows, one with the letters in lower case and one with them
     in upper case.  `IsDigit` says at which place a character stands there, and this is the value
     that it is read with (`digitValue?_eq_some_iff`).
  2. **Rows of digits**: `Spells` says which number some digits stand for.  Reading stops at the
     first digit that lifts the value above the limit; further digits never lower it again, so what
     is read are the numbers within the limit (`readDigits_eq_ok_iff`).
  3. **Numerals**: a plus sign may stand before the digits, of which there is at least one
     (`readNumeral_eq_ok_iff`).
  4. **Printing**: the digits of a number spell it, in either case and behind any number of zeros
     (`spells_toDigits`, `Spells.zeros`).
-/
import Mathlib.Data.Nat.Digits.Lemmas
import Nes.Text.Numeral

namespace Nes.Text

/-! ## Digits -/

/-- The digits, with the letters in lower case. -/
def lowerRow : List Char := "0123456789abcdef".toList

/-- The digits, with the letters in upper case. -/
def upperRow : List Char := "0123456789ABCDEF".toList

/-- `c` is the digit for `d` in a base. -/
def IsDigit (base : Nat) (c : Char) (d : Nat) : Prop :=
  d < base ∧ (lowerRow[d]? = some c ∨ upperRow[d]? = some c)

/-- The code of a character that is read as a digit. -/
theorem digitValue?_eq_some_iff_toNat {base : Nat} (hbase : base ≤ 16) {c : Char} {d : Nat} :
    digitValue? base c = some d ↔
      d < base ∧ (d < 10 ∧ c.toNat = 48 + d ∨
        10 ≤ d ∧ (c.toNat = 87 + d ∨ c.toNat = 55 + d)) := by
  have hbetween : ∀ lo hi : Char, (lo ≤ c ∧ c ≤ hi) ↔ lo.toNat ≤ c.toNat ∧ c.toNat ≤ hi.toNat :=
    fun _ _ => Iff.rfl
  have hcodes : '0'.toNat = 48 ∧ '9'.toNat = 57 ∧ 'a'.toNat = 97 ∧ 'z'.toNat = 122 ∧
      'A'.toNat = 65 ∧ 'Z'.toNat = 90 := by decide
  obtain ⟨h0, h9, ha, hz, hA, hZ⟩ := hcodes
  simp only [digitValue?, hbetween, h0, h9, ha, hz, hA, hZ, Option.ite_none_right_eq_some,
    Option.some.injEq]
  split_ifs <;> omega

/-- **A character is read as the digit that it is.** -/
theorem digitValue?_eq_some_iff {base : Nat} (hbase : base ≤ 16) {c : Char} {d : Nat} :
    digitValue? base c = some d ↔ IsDigit base c d := by
  have hrows : ∀ d < 16,
      lowerRow[d]? = some (Char.ofNat (if d < 10 then 48 + d else 87 + d)) ∧
        upperRow[d]? = some (Char.ofNat (if d < 10 then 48 + d else 55 + d)) := by decide
  have hcode : ∀ n < 128, (some (Char.ofNat n) = some c ↔ c.toNat = n) := by
    intro n hn
    have hvalid : ∀ n < 128, (Char.ofNat n).toNat = n := by decide
    rw [Option.some.injEq, ← Char.toNat_inj, hvalid n hn, eq_comm]
  rw [digitValue?_eq_some_iff_toNat hbase, IsDigit]
  refine and_congr_right fun hd => ?_
  obtain ⟨hlower, hupper⟩ := hrows d (by omega)
  rw [hlower, hupper, hcode _ (by split <;> omega), hcode _ (by split <;> omega)]
  split <;> omega

/-- A character is one digit at most. -/
theorem IsDigit.unique {base : Nat} (hbase : base ≤ 16) {c : Char} {d d' : Nat}
    (h : IsDigit base c d) (h' : IsDigit base c d') : d = d' := by
  rw [← digitValue?_eq_some_iff hbase] at h h'
  exact Option.some.inj (h.symm.trans h')

theorem not_isDigit_of_digitValue?_eq_none {base d : Nat} (hbase : base ≤ 16) {c : Char}
    (h : digitValue? base c = none) : ¬ IsDigit base c d := by
  rw [← digitValue?_eq_some_iff hbase, h]
  exact nofun

theorem not_isDigit_plus {base d : Nat} (hbase : base ≤ 16) : ¬ IsDigit base '+' d := by
  rw [← digitValue?_eq_some_iff hbase, digitValue?_eq_some_iff_toNat hbase]
  show ¬ (_ ∧ (_ ∧ 43 = _ ∨ _ ∧ (43 = _ ∨ 43 = _)))
  omega

/-! ## Rows of digits -/

/-- Some digits stand for a number, the first of them for most. -/
def Spells (base : Nat) (digits : List Char) (n : Nat) : Prop :=
  ∃ ds, List.Forall₂ (IsDigit base) digits ds ∧ n = Nat.ofDigits base ds.reverse

/-- Some digits stand for a number behind others, which stand for `acc`. -/
def SpellsBehind (base acc : Nat) (digits : List Char) (n : Nat) : Prop :=
  ∃ ds, List.Forall₂ (IsDigit base) digits ds ∧
    n = base ^ ds.length * acc + Nat.ofDigits base ds.reverse

section

variable {base limit acc n : Nat} {c : Char} {rest cs : List Char}

theorem spellsBehind_zero : SpellsBehind base 0 cs n ↔ Spells base cs n := by
  simp only [SpellsBehind, Spells, Nat.mul_zero, Nat.zero_add]

theorem spellsBehind_nil : SpellsBehind base acc [] n ↔ n = acc := by
  constructor
  · rintro ⟨ds, hds, rfl⟩
    cases hds
    simp
  · rintro rfl
    exact ⟨[], .nil, by simp⟩

/-- The first digit is taken to those before it. -/
theorem spellsBehind_cons : SpellsBehind base acc (c :: rest) n ↔
    ∃ d, IsDigit base c d ∧ SpellsBehind base (base * acc + d) rest n := by
  have hvalue : ∀ (d : Nat) (ds : List Nat),
      base ^ (d :: ds).length * acc + Nat.ofDigits base (d :: ds).reverse =
        base ^ ds.length * (base * acc + d) + Nat.ofDigits base ds.reverse := by
    intro d ds
    rw [Nat.ofDigits_reverse_cons, List.length_cons, Nat.pow_succ]
    ring
  constructor
  · rintro ⟨_, hds, rfl⟩
    cases hds with
    | cons hd hrest => exact ⟨_, hd, _, hrest, hvalue _ _⟩
  · rintro ⟨d, hd, ds, hrest, rfl⟩
    exact ⟨d :: ds, .cons hd hrest, (hvalue d ds).symm⟩

/-- Further digits never lower a number. -/
theorem SpellsBehind.le (hpos : 0 < base) (h : SpellsBehind base acc cs n) : acc ≤ n := by
  obtain ⟨ds, -, rfl⟩ := h
  exact Nat.le_add_right_of_le (Nat.le_mul_of_pos_left acc (Nat.pow_pos hpos))

/-- **What is read of a row of digits** is the number that they stand for behind those that have
    been read before, if it does not exceed the limit. -/
theorem readDigits_eq_ok_iff (hbase : base ≤ 16) (hpos : 0 < base) (hacc : acc ≤ limit) :
    readDigits base limit acc cs = .ok n ↔ SpellsBehind base acc cs n ∧ n ≤ limit := by
  fun_induction readDigits base limit acc cs with
  | case1 acc =>
    rw [spellsBehind_nil, Except.ok.injEq]
    constructor
    · rintro rfl
      exact ⟨rfl, hacc⟩
    · exact fun h => h.1.symm
  | case2 acc c rest hnone =>
    refine iff_of_false (by rintro ⟨⟩) ?_
    rw [spellsBehind_cons]
    rintro ⟨⟨d, hd, -⟩, -⟩
    exact not_isDigit_of_digitValue?_eq_none hbase hnone hd
  | case3 acc c rest d hsome hle ih =>
    have hd := (digitValue?_eq_some_iff hbase).mp hsome
    rw [ih hle, spellsBehind_cons]
    constructor
    · rintro ⟨hrest, hlimit⟩
      exact ⟨⟨d, hd, hrest⟩, hlimit⟩
    · rintro ⟨⟨d', hd', hrest⟩, hlimit⟩
      obtain rfl := hd.unique hbase hd'
      exact ⟨hrest, hlimit⟩
  | case4 acc c rest d hsome hnot =>
    have hd := (digitValue?_eq_some_iff hbase).mp hsome
    refine iff_of_false (by rintro ⟨⟩) ?_
    rw [spellsBehind_cons]
    rintro ⟨⟨d', hd', hrest⟩, hlimit⟩
    obtain rfl := hd.unique hbase hd'
    exact hnot (Nat.le_trans (hrest.le hpos) hlimit)

/-! ## Numerals -/

/-- A text is a numeral for a number: at least one digit, with or without a plus sign before. -/
def Numeral (base : Nat) (text : List Char) (n : Nat) : Prop :=
  ∃ sign digits, text = sign ++ digits ∧ (sign = [] ∨ sign = ['+']) ∧ digits ≠ [] ∧
    Spells base digits n

theorem Spells.ne_plus (hbase : base ≤ 16) (h : Spells base cs n) : cs.head? ≠ some '+' := by
  obtain ⟨ds, hds, -⟩ := h
  cases hds with
  | nil => exact nofun
  | cons hd _ =>
    intro hplus
    rw [List.head?_cons, Option.some.injEq] at hplus
    exact not_isDigit_plus hbase (hplus ▸ hd)

theorem numeral_plus_iff (hbase : base ≤ 16) :
    Numeral base ('+' :: cs) n ↔ cs ≠ [] ∧ Spells base cs n := by
  constructor
  · rintro ⟨_, digits, htext, rfl | rfl, hne, hspells⟩
    · obtain rfl : '+' :: cs = digits := htext
      exact absurd rfl (hspells.ne_plus hbase)
    · obtain rfl : cs = digits := (List.cons.inj htext).2
      exact ⟨hne, hspells⟩
  · rintro ⟨hne, hspells⟩
    exact ⟨['+'], cs, rfl, .inr rfl, hne, hspells⟩

theorem numeral_iff_of_ne_plus (hplus : cs.head? ≠ some '+') :
    Numeral base cs n ↔ cs ≠ [] ∧ Spells base cs n := by
  constructor
  · rintro ⟨_, digits, rfl, rfl | rfl, hne, hspells⟩
    · exact ⟨hne, hspells⟩
    · exact absurd rfl hplus
  · rintro ⟨hne, hspells⟩
    exact ⟨[], cs, rfl, .inl rfl, hne, hspells⟩

theorem numeral_cons_iff_of_ne_plus (hplus : c ≠ '+') :
    Numeral base (c :: rest) n ↔ Spells base (c :: rest) n := by
  have hhead : (c :: rest).head? ≠ some '+' := by
    rw [List.head?_cons, ne_eq, Option.some.injEq]
    exact hplus
  rw [numeral_iff_of_ne_plus hhead, and_iff_right (List.cons_ne_nil c rest)]

/-- **What is read as a numeral** are the numerals of the numbers within the limit. -/
theorem readNumeral_eq_ok_iff (hbase : base ≤ 16) (hpos : 0 < base) :
    readNumeral base limit cs = .ok n ↔ Numeral base cs n ∧ n ≤ limit := by
  have hdigits : ∀ cs, readDigits base limit 0 cs = .ok n ↔ Spells base cs n ∧ n ≤ limit := by
    intro cs
    rw [readDigits_eq_ok_iff hbase hpos (Nat.zero_le limit), spellsBehind_zero]
  rcases cs with _ | ⟨c, rest⟩
  · rw [numeral_iff_of_ne_plus (by decide)]
    exact iff_of_false nofun fun h => h.1.1 rfl
  · by_cases hplus : c = '+'
    · subst hplus
      rw [numeral_plus_iff hbase]
      rcases rest with _ | ⟨d, rest⟩
      · exact iff_of_false nofun fun h => h.1.1 rfl
      · show readDigits base limit 0 (d :: rest) = .ok n ↔ _
        rw [hdigits, and_iff_right (List.cons_ne_nil d rest)]
    · have hread : readNumeral base limit (c :: rest) = readDigits base limit 0 (c :: rest) := by
        unfold readNumeral
        split
        · rename_i heq
          cases heq
        · rename_i heq
          exact absurd (List.cons.inj heq).1 hplus
        · rename_i heq
          exact absurd (List.cons.inj heq).1 hplus
        · rfl
      rw [hread, hdigits, numeral_cons_iff_of_ne_plus hplus]

/-! ## Printing -/

/-- Zeros before digits count nothing. -/
theorem Spells.zeros (h : Spells base cs n) (hpos : 0 < base) (count : Nat) :
    Spells base (List.replicate count '0' ++ cs) n := by
  have hzero : IsDigit base '0' 0 := ⟨hpos, .inl rfl⟩
  induction count with
  | zero => exact h
  | succ count ih =>
    rw [← spellsBehind_zero] at ih ⊢
    refine spellsBehind_cons.mpr ⟨0, hzero, ?_⟩
    rw [Nat.mul_zero, Nat.add_zero]
    exact ih

/-- One more digit behind the others. -/
theorem Spells.concat {d : Nat} (h : Spells base cs n) (hd : IsDigit base c d) :
    Spells base (cs ++ [c]) (base * n + d) := by
  obtain ⟨ds, hds, rfl⟩ := h
  refine ⟨ds ++ [d], List.rel_append hds (.cons hd .nil), ?_⟩
  rw [List.reverse_append, List.reverse_singleton, List.singleton_append, Nat.ofDigits_cons]
  exact Nat.add_comm _ _

/-- **The digits of a number spell it**, if each is written as the digit that it is. -/
theorem spells_toDigits (hbase : 1 < base) {write : Char → Char}
    (hwrite : ∀ d < base, IsDigit base (write (Nat.digitChar d)) d) (n : Nat) :
    Spells base ((Nat.toDigits base n).map write) n := by
  have hone : ∀ d < base, Spells base [write (Nat.digitChar d)] d := by
    intro d hd
    exact ⟨[d], .cons (hwrite d hd) .nil, by simp⟩
  induction n using Nat.strong_induction_on with
  | _ n ih =>
    by_cases hn : n < base
    · rw [Nat.toDigits_of_lt_base hn]
      exact hone n hn
    · have hmod := Nat.mod_lt n (Nat.lt_trans Nat.zero_lt_one hbase)
      have hfront := ih (n / base) (Nat.div_lt_self (by omega) hbase)
      rw [Nat.toDigits_of_base_le hbase (Nat.le_of_not_lt hn), List.map_append]
      have hall := hfront.concat (hwrite (n % base) hmod)
      rwa [Nat.div_add_mod] at hall

end

end Nes.Text
