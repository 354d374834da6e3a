/-
  Flat memory: the bus on which every address is a cell of its own.

  Nothing reacts, nothing repeats and nothing is reported, so it is where an instruction is seen
  undisturbed.  `get_set` is the whole of it: a cell shows the byte last stored in that cell.
-/
import Nes.Bus

namespace Nes

/-- Memory with one cell for every address. -/
structure Ram where
  cells : Vector UInt8 65536

namespace Ram

/-- The byte in a cell. -/
def get (ram : Ram) (addr : UInt16) : UInt8 :=
  have := addr.toNat_lt
  ram.cells[addr.toNat]

/-- Stores a byte in a cell. -/
def set (ram : Ram) (addr : UInt16) (value : UInt8) : Ram :=
  ⟨ram.cells.set addr.toNat value addr.toNat_lt⟩

/-- A cell shows the byte last stored in that cell. -/
@[simp] theorem get_set (ram : Ram) (a b : UInt16) (value : UInt8) :
    (ram.set a value).get b = if a = b then value else ram.get b := by
  simp only [get, set, Vector.getElem_set]
  by_cases h : a = b
  · simp [h]
  · simp [h, UInt16.toNat_inj]

/-- Two memories that show the same bytes are equal. -/
theorem ext_get {r s : Ram} (h : ∀ a, r.get a = s.get a) : r = s := by
  obtain ⟨r⟩ := r
  obtain ⟨s⟩ := s
  congr
  apply Vector.ext
  intro i hi
  have hn : (UInt16.ofNat i).toNat = i := UInt16.toNat_ofNat_of_lt' hi
  have := h (UInt16.ofNat i)
  simpa only [get, hn] using this

/-- The memory that begins with the given bytes and is zero behind them. -/
def ofBytes (bytes : ByteArray) : Ram :=
  ⟨Vector.ofFn fun i => if h : i.val < bytes.size then bytes[i.val] else 0⟩

@[simp] theorem get_ofBytes (bytes : ByteArray) (addr : UInt16) :
    (ofBytes bytes).get addr = if h : addr.toNat < bytes.size then bytes[addr.toNat] else 0 := by
  simp only [get, ofBytes, Vector.getElem_ofFn]

instance : Bus Ram where
  read ram addr := (ram.get addr, ram)
  write := set

end Ram

end Nes
