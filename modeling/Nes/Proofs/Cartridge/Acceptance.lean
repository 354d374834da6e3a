/-
  Acceptance: which images hold a cartridge, what is in it, and why the others are refused.

  1. **Layout**: an image says itself, in a few of its bytes, where its program and its picture
     data lie and how many banks of each there are (`prgStartOf`, `prgLength`, `chrLength`).
  2. **Faults**: all that an image can be refused for, in the order in which it is looked for
     (`faults`).  An image with none of them is `WellFormed`.
  3. **Outcome**: a well-formed image gives a cartridge with the bytes in their places
     (`ofImage_of_wellFormed`), and any other the first fault that applies
     (`ofImage_of_firstFault?`).  What lies behind the picture data does not matter
     (`ofImage_congr`).
  4. **Strict reading**: a reader that gives up at the first byte or slice outside the image never
     does, as the checks come in the right order (`ofImageStrictly_eq`).
  5. **Messages**: what is reported of a refused image tells the fault, and so the number of the
     board or the bytes that are missing (`ImageError.message_inj`).
-/
import Nes.Cartridge.Image
import Nes.Proofs.Text.Fields

namespace Nes.Cartridge

/-! ## Layout -/

/-- The byte at a place of an image; behind its end, 0. -/
def byteAt (image : ByteArray) (n : Nat) : UInt8 := image[n]?.getD 0

/-- Where the program begins: behind the header, and the trainer if a bit says there is one. -/
def prgStartOf (image : ByteArray) : Nat := if (byteAt image 6).toNat.testBit 2 then 528 else 16

/-- The length of the program. -/
def prgLength (image : ByteArray) : Nat := 16384 * (byteAt image 4).toNat

/-- The length of the picture data. -/
def chrLength (image : ByteArray) : Nat := 8192 * (byteAt image 5).toNat

/-- Where the program ends and the picture data begins. -/
def prgEndOf (image : ByteArray) : Nat := prgStartOf image + prgLength image

/-- Where the picture data ends. -/
def chrEndOf (image : ByteArray) : Nat := prgEndOf image + chrLength image

/-- The number of the board: its low half is the high half of one byte, its high half that of the
    next. -/
def boardAt (image : ByteArray) : Nat :=
  16 * ((byteAt image 7).toNat / 16) + (byteAt image 6).toNat / 16

/-- `part` is the `length` bytes of an image from `start` on. -/
structure IsPart (part image : ByteArray) (start length : Nat) : Prop where
  size_eq : part.size = length
  getElem?_eq : ∀ k, k < length → part[k]? = image[start + k]?

/-! ## Faults -/

/-- What an image can be refused for, in order: whether it applies, and what is reported then. -/
def faults (image : ByteArray) : List (Bool × ImageError) :=
  [ (image.size < 16, .tooShort image.size),
    (byteAt image 4 = 0, .noPrgRom),
    (boardAt image ≠ 0, .unsupportedBoard (UInt8.ofNat (boardAt image))),
    (image.size < prgEndOf image, .prgTruncated (prgEndOf image) image.size),
    (image.size < chrEndOf image, .chrTruncated (chrEndOf image) image.size) ]

/-- The first fault that applies. -/
def firstFault? (image : ByteArray) : Option ImageError :=
  ((faults image).find? Prod.fst).map Prod.snd

/-- The images that hold a cartridge. -/
structure WellFormed (image : ByteArray) : Prop where
  header : 16 ≤ image.size
  program : byteAt image 4 ≠ 0
  plainLow : (byteAt image 6).toNat / 16 = 0
  plainHigh : (byteAt image 7).toNat / 16 = 0
  payload : chrEndOf image ≤ image.size

/-- The program of a well-formed image lies in it, as its picture data does behind. -/
theorem WellFormed.prgEndOf_le {image : ByteArray} (h : WellFormed image) :
    prgEndOf image ≤ image.size :=
  Nat.le_trans (Nat.le_add_right _ _) h.payload

theorem firstFault?_eq (image : ByteArray) :
    firstFault? image =
      if image.size < 16 then some (.tooShort image.size)
      else if byteAt image 4 = 0 then some .noPrgRom
      else if boardAt image ≠ 0 then some (.unsupportedBoard (UInt8.ofNat (boardAt image)))
      else if image.size < prgEndOf image then some (.prgTruncated (prgEndOf image) image.size)
      else if image.size < chrEndOf image then some (.chrTruncated (chrEndOf image) image.size)
      else none := by
  have hfirst : ∀ (p : Prop) [Decidable p] (e : ImageError) (rest : List (Bool × ImageError)),
      (((decide p, e) :: rest).find? Prod.fst).map Prod.snd =
        if p then some e else (rest.find? Prod.fst).map Prod.snd := by
    intro p _ e rest
    by_cases h : p <;> simp [h]
  rw [firstFault?, faults, hfirst, hfirst, hfirst, hfirst, hfirst]
  rfl

/-- An image is well-formed if no fault applies. -/
theorem firstFault?_eq_none_iff (image : ByteArray) :
    firstFault? image = none ↔ WellFormed image := by
  have hboard : boardAt image = 0 ↔
      (byteAt image 6).toNat / 16 = 0 ∧ (byteAt image 7).toNat / 16 = 0 := by
    unfold boardAt
    omega
  rw [firstFault?_eq]
  constructor
  · intro h
    split at h
    · exact nomatch h
    rename_i hsize
    split at h
    · exact nomatch h
    rename_i hbanks
    split at h
    · exact nomatch h
    rename_i hplain
    split at h
    · exact nomatch h
    split at h
    · exact nomatch h
    rename_i hend
    have hplain := hboard.mp (Decidable.not_not.mp hplain)
    exact ⟨Nat.not_lt.mp hsize, hbanks, hplain.1, hplain.2, Nat.not_lt.mp hend⟩
  · intro h
    rw [if_neg (Nat.not_lt.mpr h.header), if_neg h.program,
      if_neg (not_not_intro (hboard.mpr ⟨h.plainLow, h.plainHigh⟩)),
      if_neg (Nat.not_lt.mpr h.prgEndOf_le), if_neg (Nat.not_lt.mpr h.payload)]

/-! ## The header -/

/-- The header of an image, from its bytes. -/
def headerOf (image : ByteArray) : Header :=
  Header.ofFields (byteAt image 4) (byteAt image 5) (byteAt image 6) (byteAt image 7)
    (byteAt image 8) (byteAt image 9)

theorem getElem?_eq_data (bytes : ByteArray) (k : Nat) : bytes[k]? = bytes.data[k]? := by
  by_cases h : k < bytes.size
  · rw [getElem?_pos bytes k h, getElem?_pos bytes.data k h]
    rfl
  · rw [getElem?_neg bytes k h, getElem?_neg bytes.data k h]

theorem byteAt_of_lt {image : ByteArray} {n : Nat} (h : n < image.size) :
    byteAt image n = image[n] := by
  rw [byteAt, getElem?_pos image n h, Option.getD_some]

theorem read_eq (image : ByteArray) :
    Header.read image =
      if image.size < 16 then .error (.tooShort image.size) else .ok (headerOf image) := by
  unfold Header.read Header.size
  split
  · rfl
  · rename_i h
    unfold headerOf
    rw [byteAt_of_lt (by omega : 4 < image.size), byteAt_of_lt (by omega : 5 < image.size),
      byteAt_of_lt (by omega : 6 < image.size), byteAt_of_lt (by omega : 7 < image.size),
      byteAt_of_lt (by omega : 8 < image.size), byteAt_of_lt (by omega : 9 < image.size)]

theorem testBit_eq_testBit_toNat (b : UInt8) (i : Fin 8) : testBit b i = b.toNat.testBit i := by
  rw [testBit, BitVec.getElem_eq_testBit_toNat]
  rfl

theorem toNat_packNibbles (upper lower : UInt8) :
    (packNibbles upper lower).toNat = 16 * (upper.toNat % 16) + lower.toNat % 16 := by
  have hlow : ∀ b : UInt8, (b &&& 0x0F).toNat = b.toNat % 16 := by
    intro b
    rw [UInt8.toNat_and]
    exact Nat.and_two_pow_sub_one_eq_mod b.toNat 4
  have hlower : lower.toNat % 16 < 2 ^ 4 := Nat.mod_lt _ (by decide)
  have hshift : ((upper &&& 0x0F) <<< 4).toNat = (upper.toNat % 16) <<< 4 := by
    rw [UInt8.toNat_shiftLeft, hlow, Nat.shiftLeft_eq]
    show upper.toNat % 16 * 2 ^ 4 % 2 ^ 8 = _
    rw [Nat.shiftLeft_eq]
    omega
  rw [packNibbles, UInt8.toNat_or, hlow, hshift, ← Nat.shiftLeft_add_eq_or_of_lt hlower,
    Nat.shiftLeft_eq]
  omega

/-- The number that is packed from the upper halves of two bytes. -/
theorem toNat_packNibbles_upper (upper lower : UInt8) :
    (packNibbles (upper >>> 4) (lower >>> 4)).toNat =
      16 * (upper.toNat / 16) + lower.toNat / 16 := by
  have hupper := upper.toNat_lt
  have hlower := lower.toNat_lt
  have hhigh : ∀ b : UInt8, (b >>> 4).toNat = b.toNat / 16 := by
    intro b
    rw [UInt8.toNat_shiftRight, Nat.shiftRight_eq_div_pow]
    rfl
  rw [toNat_packNibbles, hhigh, hhigh]
  omega

theorem toNat_boardNumber (image : ByteArray) :
    (headerOf image).boardNumber.toNat = boardAt image :=
  toNat_packNibbles_upper (byteAt image 7) (byteAt image 6)

theorem boardNumber_headerOf (image : ByteArray) :
    (headerOf image).boardNumber = UInt8.ofNat (boardAt image) := by
  rw [← toNat_boardNumber, UInt8.ofNat_toNat]

theorem boardNumber_eq_zero_iff (image : ByteArray) :
    (headerOf image).boardNumber = 0 ↔ boardAt image = 0 := by
  rw [← UInt8.toNat_inj, toNat_boardNumber]
  rfl

theorem prgStart_headerOf (image : ByteArray) : (headerOf image).prgStart = prgStartOf image := by
  show (16 + if testBit (byteAt image 6) 2 then 512 else 0) = _
  rw [testBit_eq_testBit_toNat, prgStartOf]
  show (16 + if (byteAt image 6).toNat.testBit 2 then 512 else 0) = _
  split <;> rfl

theorem prgEnd_headerOf (image : ByteArray) : (headerOf image).prgEnd = prgEndOf image := by
  rw [Header.prgEnd, prgStart_headerOf, prgEndOf, prgLength, Nat.mul_comm]
  rfl

theorem chrEnd_headerOf (image : ByteArray) : (headerOf image).chrEnd = chrEndOf image := by
  rw [Header.chrEnd, prgEnd_headerOf, chrEndOf, chrLength, Nat.mul_comm]
  rfl

theorem mirroring_headerOf (image : ByteArray) :
    (headerOf image).mirroring =
      if (byteAt image 6).toNat.testBit 0 then .vertical else .horizontal := by
  show (if testBit (byteAt image 6) 0 then _ else _) = _
  rw [testBit_eq_testBit_toNat]
  rfl

/-! ## Outcome -/

theorem ofImage_eq (image : ByteArray) :
    ofImage image =
      if image.size < 16 then .error (.tooShort image.size)
      else assemble (headerOf image) image := by
  unfold ofImage
  rw [read_eq]
  split <;> rfl

theorem isPart_extract {image : ByteArray} {start length : Nat} (h : start + length ≤ image.size) :
    IsPart (image.extract start (start + length)) image start length := by
  have hsize : (image.extract start (start + length)).size = length := by
    rw [ByteArray.size_extract]
    omega
  refine ⟨hsize, fun k hk => ?_⟩
  rw [getElem?_pos _ k (by omega), getElem?_pos image (start + k) (by omega),
    ByteArray.getElem_extract]

/-- A well-formed image gives a cartridge, with the bytes in their places. -/
theorem ofImage_of_wellFormed {image : ByteArray} (h : WellFormed image) :
    ∃ c, ofImage image = .ok c ∧ c.header = headerOf image ∧
      IsPart c.board.prg image (prgStartOf image) (prgLength image) ∧
      IsPart c.chr image (prgEndOf image) (chrLength image) ∧
      c.mirroring = (headerOf image).mirroring := by
  have hchr : chrEndOf image ≤ image.size := h.payload
  have hprg : prgEndOf image ≤ image.size := h.prgEndOf_le
  have hbanks : (headerOf image).prgRomBanks ≠ 0 := h.program
  have hboard : (headerOf image).boardNumber = 0 := by
    rw [boardNumber_eq_zero_iff, boardAt, h.plainLow, h.plainHigh]
  rw [ofImage_eq, if_neg (Nat.not_lt.mpr h.header), assemble, dif_neg hbanks,
    if_neg (not_not_intro hboard), dif_neg (by rw [prgEnd_headerOf]; exact Nat.not_lt.mpr hprg),
    if_neg (by rw [chrEnd_headerOf]; exact Nat.not_lt.mpr hchr)]
  refine ⟨_, rfl, rfl, ?_, ?_, rfl⟩
  · show IsPart (image.extract _ _) image _ _
    rw [prgStart_headerOf, prgEnd_headerOf]
    exact isPart_extract hprg
  · show IsPart (image.extract _ _) image _ _
    rw [prgEnd_headerOf, chrEnd_headerOf]
    exact isPart_extract hchr

/-- Any other image is refused, for the first fault that applies. -/
theorem ofImage_of_firstFault? {image : ByteArray} {e : ImageError}
    (h : firstFault? image = some e) : ofImage image = .error e := by
  have hbanks : (headerOf image).prgRomBanks = 0 ↔ byteAt image 4 = 0 := Iff.rfl
  rw [firstFault?_eq] at h
  rw [ofImage_eq, assemble]
  simp only [hbanks, ne_eq, boardNumber_eq_zero_iff, prgEnd_headerOf, chrEnd_headerOf]
  split at h
  · rw [if_pos ‹_›, Option.some.inj h]
  rw [if_neg ‹_›]
  split at h
  · rw [dif_pos ‹_›, Option.some.inj h]
  rw [dif_neg ‹_›]
  split at h
  · rw [if_pos ‹_›, boardNumber_headerOf, Option.some.inj h]
  rw [if_neg ‹_›]
  split at h
  · rw [dif_pos ‹_›, Option.some.inj h]
  rw [dif_neg ‹_›]
  split at h
  · rw [if_pos ‹_›, Option.some.inj h]
  · exact nomatch h

/-- Two parts with the same bytes are the same. -/
theorem IsPart.unique {part part' image : ByteArray} {start length : Nat}
    (h : IsPart part image start length) (h' : IsPart part' image start length) : part = part' := by
  have hsize := h.size_eq
  have hsize' := h'.size_eq
  apply ByteArray.ext_getElem (hsize.trans hsize'.symm)
  intro k hk hk'
  have hbyte := (h.getElem?_eq k (by omega)).trans (h'.getElem?_eq k (by omega)).symm
  rw [getElem?_pos part k hk, getElem?_pos part' k hk'] at hbyte
  exact Option.some.inj hbyte

/-- A part of an image is a part of each image that agrees with it so far. -/
theorem IsPart.congr {part image other : ByteArray} {start length stop : Nat}
    (h : IsPart part image start length) (hstop : start + length ≤ stop)
    (hsame : ∀ k, k < stop → other[k]? = image[k]?) : IsPart part other start length :=
  ⟨h.size_eq, fun k hk => (h.getElem?_eq k hk).trans (hsame (start + k) (by omega)).symm⟩

/-- Two cartridges with the same header, program, picture data and wiring are the same. -/
theorem eq_of_parts {c d : Cartridge} (hheader : c.header = d.header) (hchr : c.chr = d.chr)
    (hprg : c.board.prg = d.board.prg) (hmirroring : c.mirroring = d.mirroring) : c = d := by
  obtain ⟨header, chr, ⟨prg, wiring, hpos⟩⟩ := c
  obtain ⟨header', chr', ⟨prg', wiring', hpos'⟩⟩ := d
  obtain rfl : header = header' := hheader
  obtain rfl : chr = chr' := hchr
  obtain rfl : prg = prg' := hprg
  obtain rfl : wiring = wiring' := hmirroring
  rfl

/-- **What lies behind the picture data does not matter.** -/
theorem ofImage_congr {image other : ByteArray} (h : WellFormed image)
    (hsame : ∀ k, k < chrEndOf image → other[k]? = image[k]?) : ofImage other = ofImage image := by
  have hstart : 16 ≤ prgStartOf image := by
    unfold prgStartOf
    split <;> decide
  have hprg : prgStartOf image + prgLength image ≤ chrEndOf image := Nat.le_add_right _ _
  have hbyte : ∀ n, n < 16 → byteAt other n = byteAt image n := fun n hn => by
    rw [byteAt, byteAt, hsame n (by omega)]
  -- so far the two are the same, and there is more than the header
  have hsize : chrEndOf image ≤ other.size := by
    refine Nat.le_of_not_lt fun hshort => ?_
    have hlast := hsame other.size hshort
    rw [getElem?_neg other other.size (Nat.lt_irrefl _),
      getElem?_pos image other.size (Nat.lt_of_lt_of_le hshort h.payload)] at hlast
    exact nomatch hlast
  have hprgStart : prgStartOf other = prgStartOf image := by
    rw [prgStartOf, prgStartOf, hbyte 6 (by decide)]
  have hprgLength : prgLength other = prgLength image := by
    rw [prgLength, prgLength, hbyte 4 (by decide)]
  have hchrLength : chrLength other = chrLength image := by
    rw [chrLength, chrLength, hbyte 5 (by decide)]
  have hprgEnd : prgEndOf other = prgEndOf image := by
    rw [prgEndOf, prgEndOf, hprgStart, hprgLength]
  have hchrEnd : chrEndOf other = chrEndOf image := by
    rw [chrEndOf, chrEndOf, hprgEnd, hchrLength]
  have hheader : headerOf other = headerOf image := by
    rw [headerOf, headerOf, hbyte 4 (by decide), hbyte 5 (by decide), hbyte 6 (by decide),
      hbyte 7 (by decide), hbyte 8 (by decide), hbyte 9 (by decide)]
  have hother : WellFormed other :=
    { header := by omega
      program := by rw [hbyte 4 (by decide)]; exact h.program
      plainLow := by rw [hbyte 6 (by decide)]; exact h.plainLow
      plainHigh := by rw [hbyte 7 (by decide)]; exact h.plainHigh
      payload := by rw [hchrEnd]; exact hsize }
  obtain ⟨c, hc, hcheader, hcprg, hcchr, hcmirroring⟩ := ofImage_of_wellFormed h
  obtain ⟨d, hd, hdheader, hdprg, hdchr, hdmirroring⟩ := ofImage_of_wellFormed hother
  rw [hprgStart, hprgLength] at hdprg
  rw [hprgEnd, hchrLength] at hdchr
  have heq : d = c := eq_of_parts (hdheader.trans (hheader.trans hcheader.symm))
    (hdchr.unique (hcchr.congr (Nat.le_refl _) hsame))
    (hdprg.unique (hcprg.congr hprg hsame))
    (hdmirroring.trans ((congrArg Header.mirroring hheader).trans hcmirroring.symm))
  rw [hd, hc, heq]

/-! ## Strict reading -/

/-- The part of an image between two places, if they lie within it in this order. -/
def slice? (image : ByteArray) (start stop : Nat) : Option ByteArray :=
  if start ≤ stop ∧ stop ≤ image.size then some (image.extract start stop) else none

/-- Reads the header, but gives up if a byte or a slice lies outside the image. -/
def readStrictly (image : ByteArray) : Option (Except ImageError Header) :=
  if image.size < Header.size then some (.error (.tooShort image.size))
  else do
    -- the mark is looked at, but an image without it is read all the same
    let _mark ← slice? image 0 4
    let flags6 ← image[6]?
    let flags7 ← image[7]?
    let prgRom ← image[4]?
    let chrRom ← image[5]?
    let prgRam ← image[8]?
    let flags9 ← image[9]?
    some (.ok (Header.ofFields prgRom chrRom flags6 flags7 prgRam flags9))

/-- Takes program and picture data out of the image, but gives up if one of them does not lie in it
    or there is not even one bank of program for the board. -/
def assembleStrictly (header : Header) (image : ByteArray) :
    Option (Except ImageError Cartridge) :=
  if header.prgRomBanks = 0 then some (.error .noPrgRom)
  else if header.boardNumber ≠ 0 then some (.error (.unsupportedBoard header.boardNumber))
  else if image.size < header.prgEnd then some (.error (.prgTruncated header.prgEnd image.size))
  else if image.size < header.chrEnd then some (.error (.chrTruncated header.chrEnd image.size))
  else do
    let prg ← slice? image header.prgStart header.prgEnd
    let chr ← slice? image header.prgEnd header.chrEnd
    if hbank : Header.prgBankSize ≤ prg.size then
      some (.ok
        { header := header
          chr := chr
          board :=
            { prg := prg
              mirroring := header.mirroring
              prg_size_pos := Nat.lt_of_lt_of_le (by decide) hbank } })
    else none

/-- Reads the cartridge in an image, but gives up at the first byte or slice outside it. -/
def ofImageStrictly (image : ByteArray) : Option (Except ImageError Cartridge) := do
  match ← readStrictly image with
  | .error e => some (.error e)
  | .ok header => assembleStrictly header image

theorem slice?_of_le {image : ByteArray} {start stop : Nat} (hstart : start ≤ stop)
    (hstop : stop ≤ image.size) : slice? image start stop = some (image.extract start stop) :=
  if_pos ⟨hstart, hstop⟩

theorem readStrictly_eq (image : ByteArray) : readStrictly image = some (Header.read image) := by
  rw [read_eq, readStrictly, Header.size]
  split
  · rfl
  · rename_i h
    have hbyte : ∀ n, n < 16 → image[n]? = some (byteAt image n) := fun n hn => by
      rw [byteAt_of_lt (by omega), getElem?_pos]
    rw [slice?_of_le (Nat.zero_le 4) (by omega), hbyte 6 (by decide), hbyte 7 (by decide),
      hbyte 4 (by decide), hbyte 5 (by decide), hbyte 8 (by decide), hbyte 9 (by decide)]
    rfl

/-- Where the slices are taken, they lie in the image, and the first holds a bank. -/
theorem assembleStrictly_eq (header : Header) (image : ByteArray) :
    assembleStrictly header image = some (assemble header image) := by
  rw [assembleStrictly, assemble]
  split
  · rfl
  rename_i hbanks
  split
  · rfl
  split
  · rfl
  rename_i hprg
  split
  · rfl
  rename_i hchr
  have hlength : Header.prgBankSize ≤ header.prgRomSize := by
    have hpos : header.prgRomBanks.toNat ≠ 0 := fun h => hbanks (UInt8.toNat_inj.mp h)
    exact Nat.le_mul_of_pos_left _ (Nat.pos_of_ne_zero hpos)
  have hprgEnd : header.prgEnd = header.prgStart + header.prgRomSize := rfl
  have hbank : Header.prgBankSize ≤ (image.extract header.prgStart header.prgEnd).size := by
    rw [ByteArray.size_extract]
    omega
  have hprgSlice : slice? image header.prgStart header.prgEnd = some _ :=
    slice?_of_le (Nat.le_add_right _ _) (Nat.not_lt.mp hprg)
  have hchrSlice : slice? image header.prgEnd header.chrEnd = some _ :=
    slice?_of_le (Nat.le_add_right _ _) (Nat.not_lt.mp hchr)
  simp only [hprgSlice, hchrSlice, Option.bind_eq_bind, Option.bind_some, dif_pos hbank]

/-- **No byte and no slice outside the image**: strict reading never gives up. -/
theorem ofImageStrictly_eq (image : ByteArray) :
    ofImageStrictly image = some (ofImage image) := by
  rw [ofImageStrictly, readStrictly_eq, ofImage]
  cases Header.read image with
  | error e => rfl
  | ok header => exact assembleStrictly_eq header image

/-! ## Acceptance -/

/-- **Which images hold a cartridge.**  They are the well-formed ones; the cartridge has the bytes
    of program and picture data in their places and the wiring that the header says, and what
    follows does not matter.  Any other image is refused for the first fault that applies.  Whatever
    the image, nothing outside of it is looked at. -/
theorem ofImage_accepts (image : ByteArray) :
    ((ofImage image).isOk ↔
      16 ≤ image.size ∧ byteAt image 4 ≠ 0 ∧
        (byteAt image 6).toNat / 16 = 0 ∧ (byteAt image 7).toNat / 16 = 0 ∧
        prgStartOf image + prgLength image + chrLength image ≤ image.size) ∧
    (∀ c, ofImage image = .ok c →
      IsPart c.board.prg image (prgStartOf image) (prgLength image) ∧
      IsPart c.chr image (prgStartOf image + prgLength image) (chrLength image) ∧
      c.mirroring = (if (byteAt image 6).toNat.testBit 0 then .vertical else .horizontal) ∧
      ∀ other : ByteArray,
        (∀ k, k < prgStartOf image + prgLength image + chrLength image → other[k]? = image[k]?) →
          ofImage other = .ok c) ∧
    (∀ e, ofImage image = .error e ↔ firstFault? image = some e) ∧
    ofImageStrictly image = some (ofImage image) := by
  have hstrict := ofImageStrictly_eq image
  cases hfault : firstFault? image with
  | none =>
    have h := (firstFault?_eq_none_iff image).mp hfault
    obtain ⟨c, hc, -, hprg, hchr, hmirroring⟩ := ofImage_of_wellFormed h
    refine ⟨?_, ?_, ?_, hstrict⟩
    · rw [hc]
      exact ⟨fun _ => ⟨h.header, h.program, h.plainLow, h.plainHigh, h.payload⟩, fun _ => rfl⟩
    · intro d hd
      obtain rfl : c = d := Except.ok.inj (hc.symm.trans hd)
      rw [mirroring_headerOf] at hmirroring
      exact ⟨hprg, hchr, hmirroring, fun other hsame => (ofImage_congr h hsame).trans hc⟩
    · intro e
      rw [hc]
      exact ⟨nofun, nofun⟩
  | some fault =>
    have herror := ofImage_of_firstFault? hfault
    refine ⟨?_, ?_, ?_, hstrict⟩
    · rw [herror]
      refine ⟨nofun, fun ⟨hsize, hbanks, hlow, hhigh, hend⟩ => ?_⟩
      have hnone := (firstFault?_eq_none_iff image).mpr ⟨hsize, hbanks, hlow, hhigh, hend⟩
      exact nomatch hfault.symm.trans hnone
    · intro c hc
      exact nomatch herror.symm.trans hc
    · intro e
      rw [herror, Except.error.injEq, Option.some.injEq]

theorem getElem?_append_of_lt {image : ByteArray} {k : Nat} (h : k < image.size)
    (tail : ByteArray) : (image ++ tail)[k]? = image[k]? := by
  have hk : k < (image ++ tail).size := by
    rw [ByteArray.size_append]
    omega
  rw [getElem?_pos _ k hk, getElem?_pos image k h, ByteArray.getElem_append_left h]

/-- The header of an image with a trainer, one bank of program and one of picture data. -/
def oneBankHeader : ByteArray :=
  ⟨#[0x4E, 0x45, 0x53, 0x1A, 1, 1, 0x05, 0, 0, 0, 0, 0, 0, 0, 0, 0]⟩

/-- Trainer, program and picture data, all the same byte. -/
def oneBankPayload : ByteArray := ⟨Array.replicate 25088 0xEA⟩

/-- Three bytes behind the picture data change nothing. -/
theorem ofImage_accepts_oneBank :
    ∃ c, ofImage (oneBankHeader ++ oneBankPayload) = .ok c ∧ c.chr.size = 8192 ∧
      c.mirroring = .vertical ∧
      ofImage (oneBankHeader ++ oneBankPayload ++ ⟨#[1, 2, 3]⟩) = .ok c := by
  have hsize : (oneBankHeader ++ oneBankPayload).size = 25104 := by
    have hheader : oneBankHeader.size = 16 := rfl
    have hpayload : oneBankPayload.size = 25088 := Array.size_replicate
    rw [ByteArray.size_append, hheader, hpayload]
  have hbyte : ∀ n, n < 16 →
      byteAt (oneBankHeader ++ oneBankPayload) n = byteAt oneBankHeader n := fun n hn =>
    congrArg (Option.getD · 0) (getElem?_append_of_lt hn oneBankPayload)
  have h4 : byteAt (oneBankHeader ++ oneBankPayload) 4 = 1 := hbyte 4 (by decide)
  have h5 : byteAt (oneBankHeader ++ oneBankPayload) 5 = 1 := hbyte 5 (by decide)
  have h6 : byteAt (oneBankHeader ++ oneBankPayload) 6 = 0x05 := hbyte 6 (by decide)
  have h7 : byteAt (oneBankHeader ++ oneBankPayload) 7 = 0 := hbyte 7 (by decide)
  have hstart : prgStartOf (oneBankHeader ++ oneBankPayload) = 528 := by
    rw [prgStartOf, h6]
    rfl
  have hprg : prgLength (oneBankHeader ++ oneBankPayload) = 16384 := by
    rw [prgLength, h4]
    rfl
  have hchr : chrLength (oneBankHeader ++ oneBankPayload) = 8192 := by
    rw [chrLength, h5]
    rfl
  obtain ⟨haccept, hok, -, -⟩ := ofImage_accepts (oneBankHeader ++ oneBankPayload)
  rw [h4, h6, h7, hstart, hprg, hchr, hsize] at haccept
  rw [h6, hstart, hprg, hchr] at hok
  have hisOk := haccept.mpr (by decide)
  cases hc : ofImage (oneBankHeader ++ oneBankPayload) with
  | error e =>
    rw [hc] at hisOk
    exact nomatch hisOk
  | ok c =>
    obtain ⟨-, hchr, hmirroring, hignored⟩ := hok c hc
    exact ⟨c, rfl, hchr.size_eq, hmirroring,
      hignored _ fun k hk => getElem?_append_of_lt (by omega) _⟩

end Nes.Cartridge

namespace Nes.ImageError

open Nes.Text (decimal decimal_append_inj decimal_inj getElem?_append_of_eq)

/-! ## Messages -/

/-- The character with which the message of a fault begins. -/
def initial : ImageError → Char
  | .tooShort _ => 'i'
  | .noPrgRom => 'h'
  | .unsupportedBoard _ => 'u'
  | .prgTruncated _ _ => 'P'
  | .chrTruncated _ _ => 'C'

theorem message_zero (fault : ImageError) : fault.message.toList[0]? = some fault.initial := by
  cases fault with
  | tooShort size => exact getElem?_append_of_eq (getElem?_append_of_eq rfl _) _
  | noPrgRom => rfl
  | unsupportedBoard number =>
    exact getElem?_append_of_eq
      (getElem?_append_of_eq (getElem?_append_of_eq (getElem?_append_of_eq rfl _) _) _) _
  | prgTruncated needed size | chrTruncated needed size =>
    exact getElem?_append_of_eq (getElem?_append_of_eq (getElem?_append_of_eq rfl _) _) _

/-- The number of a board can be told by a message. -/
theorem number_inj {number number' : Nat} {name name' : String}
    (h : "unsupported mapper " ++ decimal number ++ " (" ++ name ++ ")" =
      "unsupported mapper " ++ decimal number' ++ " (" ++ name' ++ ")") : number = number' := by
  simp only [String.append_assoc] at h
  exact (decimal_append_inj (by decide) ((String.append_right_inj "unsupported mapper ").mp h)).1

/-- The bytes that are needed and those that there are can be told by a message. -/
theorem needed_inj (front : String) {needed size needed' size' : Nat}
    (h : front ++ decimal needed ++ " bytes, image has " ++ decimal size =
      front ++ decimal needed' ++ " bytes, image has " ++ decimal size') :
    needed = needed' ∧ size = size' := by
  simp only [String.append_assoc] at h
  obtain ⟨hneeded, hsize⟩ := decimal_append_inj (by decide) ((String.append_right_inj front).mp h)
  exact ⟨hneeded, decimal_inj hsize⟩

/-- **The message tells the fault**, with all numbers in it. -/
theorem message_inj {a b : ImageError} (h : a.message = b.message) : a = b := by
  have hinitial : a.initial = b.initial := by
    rw [← Option.some.injEq, ← message_zero, ← message_zero, h]
  cases a with
  | tooShort size =>
    cases b with
    | tooShort size' =>
      have hsize := (String.append_left_inj " bytes, shorter than the iNES header").mp h
      rw [decimal_inj ((String.append_right_inj "image is ").mp hsize)]
    | _ => simp [initial] at hinitial
  | noPrgRom =>
    cases b with
    | noPrgRom => rfl
    | _ => simp [initial] at hinitial
  | unsupportedBoard number =>
    cases b with
    | unsupportedBoard number' =>
      rw [UInt8.toNat_inj.mp (number_inj h)]
    | _ => simp [initial] at hinitial
  | prgTruncated needed size =>
    cases b with
    | prgTruncated needed' size' =>
      obtain ⟨rfl, rfl⟩ := needed_inj "PRG ROM truncated: need " h
      rfl
    | _ => simp [initial] at hinitial
  | chrTruncated needed size =>
    cases b with
    | chrTruncated needed' size' =>
      obtain ⟨rfl, rfl⟩ := needed_inj "CHR ROM truncated: need " h
      rfl
    | _ => simp [initial] at hinitial

end Nes.ImageError
