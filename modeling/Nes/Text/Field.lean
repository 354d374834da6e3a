/-
  Fields of fixed width: hexadecimal digits, decimal numbers, padded columns.

  Addresses are written with four upper-case hexadecimal digits and bytes with two, so the text of
  a byte or an address never changes its width, and the value can be read off it again
  (`hexByte_inj`, `hexWord_inj`).  Padding only ever ADDS blanks: a text wider than its column stays
  whole (`length_padRight`).
-/
import Nes.Word

namespace Nes.Text

/-! ## Hexadecimal -/

/-- The upper-case hexadecimal digit of `n`. -/
def hexDigit (n : Fin 16) : Char :=
  ['0', '1', '2', '3', '4', '5', '6', '7', '8', '9', 'A', 'B', 'C', 'D', 'E', 'F'][n]

theorem hexDigit_inj : ∀ {m n : Fin 16}, hexDigit m = hexDigit n → m = n := by decide

/-- The two hexadecimal digits of a byte. -/
def hexByteDigits (b : UInt8) : List Char :=
  have := b.toNat_lt
  [hexDigit ⟨b.toNat / 16, by omega⟩, hexDigit ⟨b.toNat % 16, by omega⟩]

/-- A byte as two hexadecimal digits. -/
def hexByte (b : UInt8) : String := String.ofList (hexByteDigits b)

/-- A word as four hexadecimal digits, the high byte first. -/
def hexWord (w : UInt16) : String := hexByte (highByte w) ++ hexByte (lowByte w)

@[simp] theorem length_hexByteDigits (b : UInt8) : (hexByteDigits b).length = 2 := rfl

@[simp] theorem toList_hexByte (b : UInt8) : (hexByte b).toList = hexByteDigits b := by
  simp [hexByte]

@[simp] theorem toList_hexWord (w : UInt16) :
    (hexWord w).toList = hexByteDigits (highByte w) ++ hexByteDigits (lowByte w) := by
  simp [hexWord]

theorem hexByteDigits_inj {a b : UInt8} (h : hexByteDigits a = hexByteDigits b) : a = b := by
  simp only [hexByteDigits, List.cons.injEq, and_true] at h
  have hhi := Fin.mk.inj (hexDigit_inj h.1)
  have hlo := Fin.mk.inj (hexDigit_inj h.2)
  apply UInt8.toNat_inj.1
  omega

/-- The two digits determine the byte. -/
theorem hexByte_inj {a b : UInt8} (h : hexByte a = hexByte b) : a = b :=
  hexByteDigits_inj (by simpa using congrArg String.toList h)

/-- The four digits determine the word. -/
theorem hexWord_inj {v w : UInt16} (h : hexWord v = hexWord w) : v = w := by
  have h := congrArg String.toList h
  simp only [toList_hexWord] at h
  obtain ⟨hhi, hlo⟩ := List.append_inj h rfl
  rw [← word_lowByte_highByte v, ← word_lowByte_highByte w, hexByteDigits_inj hhi,
    hexByteDigits_inj hlo]

/-! ## Decimal and padding -/

/-- A number in decimal, without leading zeros. -/
def decimal (n : Nat) : String := String.ofList (Nat.toDigits 10 n)

/-- The text `s`, filled up with blanks on the right to at least `width` characters. -/
def padRight (width : Nat) (s : String) : String :=
  s ++ String.ofList (List.replicate (width - s.length) ' ')

/-- The text `s`, filled up with blanks on the left to at least `width` characters. -/
def padLeft (width : Nat) (s : String) : String :=
  String.ofList (List.replicate (width - s.length) ' ') ++ s

theorem length_padRight (width : Nat) (s : String) :
    (padRight width s).length = max s.length width := by
  simp [padRight]
  omega

theorem length_padLeft (width : Nat) (s : String) :
    (padLeft width s).length = max s.length width := by
  simp [padLeft]
  omega

/-- The words "true" and "false". -/
def truth (b : Bool) : String := if b then "true" else "false"

end Nes.Text
