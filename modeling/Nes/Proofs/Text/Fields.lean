/-
  Fields: what a text begins with can be read off it, whatever stands behind.

  1. **Hexadecimal**: two digits are a byte, so the field ends where it must
     (`hexByte_append_inj`).
  2. **Decimal**: the digits of a number end before the first character that is none, so a number is
     told by the text that begins with it if a separator comes next (`decimal_append_inj`), or if
     nothing does (`decimal_inj`).
  3. **Wordings**: a text has the characters of whatever it begins with, in their places
     (`getElem?_append_of_eq`), so one of them can be enough to tell two wordings apart.
-/
import Nes.Text.Field

namespace Nes.Text

/-! ## Hexadecimal -/

/-- **A text that begins with a byte tells the byte and the rest.** -/
theorem hexByte_append_inj {a b : UInt8} {x y : String} (h : hexByte a ++ x = hexByte b ++ y) :
    a = b ∧ x = y := by
  have hlist := congrArg String.toList h
  rw [String.toList_append, String.toList_append, toList_hexByte, toList_hexByte] at hlist
  obtain ⟨hdigits, hrest⟩ := List.append_inj hlist rfl
  exact ⟨hexByteDigits_inj hdigits, String.toList_inj.mp hrest⟩

/-! ## Decimal -/

theorem decimal_inj {m n : Nat} (h : decimal m = decimal n) : m = n := by
  have hdigits := String.ofList_injective h
  rw [← Nat.ofDigitChars_ten_toDigits (n := m), hdigits, Nat.ofDigitChars_ten_toDigits]

section

variable {separator : String} (hseparator : separator.toList.head?.any fun c => !c.isDigit)

include hseparator

/-- The digits with which a text begins, if a number does and then a separator. -/
theorem takeWhile_decimal (n : Nat) (rest : String) :
    (decimal n ++ (separator ++ rest)).toList.takeWhile Char.isDigit = (decimal n).toList := by
  have hdigits : ∀ c ∈ (decimal n).toList, c.isDigit = true := by
    rw [decimal, String.toList_ofList]
    exact fun c hc => Nat.isDigit_of_mem_toDigits (by decide) (by decide) hc
  rw [String.toList_append, String.toList_append, List.takeWhile_append_of_pos hdigits]
  cases hlist : separator.toList with
  | nil =>
    rw [hlist] at hseparator
    exact nomatch hseparator
  | cons c others =>
    have hc : ¬ c.isDigit = true := by simpa [hlist] using hseparator
    rw [List.cons_append, List.takeWhile_cons_of_neg hc, List.append_nil]

/-- **A text that begins with a number and a separator tells the number and the rest.** -/
theorem decimal_append_inj {m n : Nat} {x y : String}
    (h : decimal m ++ (separator ++ x) = decimal n ++ (separator ++ y)) : m = n ∧ x = y := by
  have hdecimal : decimal m = decimal n := by
    apply String.toList_inj.mp
    rw [← takeWhile_decimal hseparator m x, h, takeWhile_decimal hseparator n y]
  rw [hdecimal, String.append_right_inj, String.append_right_inj] at h
  exact ⟨decimal_inj hdecimal, h⟩

end

/-! ## Wordings -/

/-- A text has the characters of whatever it begins with, in their places. -/
theorem getElem?_append_of_eq {front : String} {k : Nat} {c : Char}
    (h : front.toList[k]? = some c) (rest : String) :
    (front ++ rest).toList[k]? = some c := by
  obtain ⟨hk, -⟩ := List.getElem?_eq_some_iff.mp h
  rw [String.toList_append, List.getElem?_append_left hk, h]

end Nes.Text
