/-
  Grammar: which arguments and which values of the variables are understood, and how.

  Four inputs are looked at one after the other: the arguments, the verbosity, the start address and
  the step limit.  Each of the variables may be unset; if it is set, its text must have a certain
  form, and then stands for one value.

  1. **Words**: a verbosity is written as its word, each letter in either case
     (`Verbosity.ofName?_eq_some_iff`).
  2. **Addresses**: before the numeral stand any number of dollar signs and then any number of `0x`,
     neither of which can begin a numeral (`readStartPc_eq_ok_iff`).
  3. **Inputs**: the settings are read just if all inputs fit, and then are what they say
     (`read_eq_ok_iff`); otherwise the first that does not fit is reported (`read_eq_error`).
  4. **Printed addresses**: what prints an address in base 16 is read as that address
     (`writesAddress_printed`).
-/
import Mathlib.Data.List.TakeWhile
import Nes.Proofs.Text.Numerals
import Nes.Run.Settings

namespace Nes

open Nes.Text (IsDigit Numeral NumeralError not_isDigit_of_digitValue?_eq_none
  numeral_cons_iff_of_ne_plus readNumeral readNumeral_eq_ok_iff spells_toDigits)

/-! ## Words -/

/-- `c` is the lower-case letter `l` in either case. -/
def EitherCase (c l : Char) : Prop := c = l ∨ c.toNat + 32 = l.toNat

theorem toNat_toUpper (c : Char) :
    c.toUpper.toNat = if 97 ≤ c.toNat ∧ c.toNat ≤ 122 then c.toNat - 32 else c.toNat := by
  have hlower : ('a'.val ≤ c.val ∧ c.val ≤ 'z'.val) ↔ 97 ≤ c.toNat ∧ c.toNat ≤ 122 := Iff.rfl
  by_cases hc : 97 ≤ c.toNat ∧ c.toNat ≤ 122
  · have hshift : ('A'.val - 'a'.val).toNat = 2 ^ 32 - 32 := by decide
    have hupper : c.toUpper = _ := dif_pos (hlower.mpr hc)
    rw [hupper, if_pos hc]
    show (c.val + ('A'.val - 'a'.val)).toNat = _
    rw [UInt32.toNat_add, hshift]
    show (c.toNat + _) % _ = _
    omega
  · have hself : c.toUpper = c := dif_neg (hlower.not.mpr hc)
    rw [hself, if_neg hc]

/-- A text and a word in lower case are the same but for the case of their letters. -/
theorem map_toUpper_eq_iff {text word : List Char}
    (hword : ∀ l ∈ word, 97 ≤ l.toNat ∧ l.toNat ≤ 122) :
    text.map Char.toUpper = word.map Char.toUpper ↔ List.Forall₂ EitherCase text word := by
  have hletter : ∀ c l : Char, 97 ≤ l.toNat ∧ l.toNat ≤ 122 →
      (c.toUpper = l.toUpper ↔ EitherCase c l) := by
    intro c l hl
    rw [EitherCase, ← Char.toNat_inj, ← Char.toNat_inj, toNat_toUpper, toNat_toUpper, if_pos hl]
    split <;> omega
  induction word generalizing text with
  | nil => cases text <;> simp
  | cons l word ih =>
    cases text with
    | nil => simp
    | cons c text =>
      have hrest : text.map Char.toUpper = word.map Char.toUpper ↔
          List.Forall₂ EitherCase text word :=
        ih fun l hl => hword l (List.mem_cons_of_mem _ hl)
      rw [List.map_cons, List.map_cons, List.cons.injEq, List.forall₂_cons,
        hletter c l (hword l List.mem_cons_self), hrest]

namespace Verbosity

/-- The word for a verbosity. -/
def word : Verbosity → String
  | .off => "off"
  | .upTo .error => "error"
  | .upTo .warn => "warn"
  | .upTo .info => "info"
  | .upTo .debug => "debug"
  | .upTo .trace => "trace"

/-- A text is the word for a verbosity, each letter in either case. -/
def WrittenAs (v : Verbosity) (text : String) : Prop :=
  List.Forall₂ EitherCase text.toList v.word.toList

theorem mem_all (v : Verbosity) : v ∈ all := by
  rcases v with _ | _ | _ | _ | _ | _ <;> decide

/-- **A verbosity is found by its word**, in any mixture of cases. -/
theorem ofName?_eq_some_iff {text : String} {v : Verbosity} :
    ofName? text = some v ↔ v.WrittenAs text := by
  have hnames : ∀ v ∈ all, v.name.toList = v.word.toList.map Char.toUpper ∧
      (v.word.toList.all fun l => 97 ≤ l.toNat ∧ l.toNat ≤ 122) = true := by decide
  have hinj : ∀ v ∈ all, ∀ w ∈ all, v.name.toList = w.name.toList → v = w := by decide
  have hname : ∀ v : Verbosity,
      (text.toList.map Char.toUpper == v.name.toList) = true ↔ v.WrittenAs text := by
    intro v
    obtain ⟨hupper, hletters⟩ := hnames v v.mem_all
    have hlower : ∀ l ∈ v.word.toList, 97 ≤ l.toNat ∧ l.toNat ≤ 122 := fun l hl =>
      of_decide_eq_true (List.all_eq_true.mp hletters l hl)
    rw [beq_iff_eq, hupper, map_toUpper_eq_iff hlower, WrittenAs]
  rw [ofName?]
  constructor
  · intro h
    have hv := List.find?_some h
    exact (hname v).mp hv
  · intro h
    cases hfound : all.find? fun v => text.toList.map Char.toUpper == v.name.toList with
    | none => exact absurd ((hname v).mpr h) (List.find?_eq_none.mp hfound v v.mem_all)
    | some w =>
      have hw := List.find?_some hfound
      have hv := (hname v).mpr h
      rw [beq_iff_eq] at hw hv
      rw [hinj w w.mem_all v v.mem_all (hw.symm.trans hv)]

end Verbosity

namespace Run

/-! ## Addresses -/

/-- Any number of dollar signs. -/
def dollars (count : Nat) : List Char := List.replicate count '$'

/-- Any number of marks. -/
def hexMarks (count : Nat) : List Char := (List.replicate count ['0', 'x']).flatten

/-- A text writes an address: dollar signs, then marks, then a numeral. -/
def WritesAddress (text : List Char) (n : Nat) : Prop :=
  ∃ count marks numeral, text = dollars count ++ hexMarks marks ++ numeral ∧ Numeral 16 numeral n

section

variable {text numeral : List Char} {n : Nat}

theorem exists_dollars (text : List Char) : ∃ count, text = dollars count ++ dropDollars text := by
  refine ⟨(text.takeWhile (· == '$')).length, ?_⟩
  have hall : dollars (text.takeWhile (· == '$')).length = text.takeWhile (· == '$') := by
    refine (List.eq_replicate_of_mem fun c hc => ?_).symm
    have hdollar := List.mem_takeWhile_imp hc
    exact beq_iff_eq.mp hdollar
  rw [hall, dropDollars, List.takeWhile_append_dropWhile]

theorem exists_hexMarks (text : List Char) :
    ∃ marks, text = hexMarks marks ++ dropHexMarks text := by
  fun_induction dropHexMarks text with
  | case1 rest ih =>
    obtain ⟨marks, hmarks⟩ := ih
    refine ⟨marks + 1, ?_⟩
    show _ = '0' :: 'x' :: (hexMarks marks ++ dropHexMarks rest)
    rw [← hmarks]
  | case2 text hnot => exact ⟨0, rfl⟩

theorem dropDollars_dollars (count : Nat) (text : List Char) :
    dropDollars (dollars count ++ text) = dropDollars text := by
  refine List.dropWhile_append_of_pos fun c hc => ?_
  rw [List.eq_of_mem_replicate hc]
  rfl

theorem dropHexMarks_hexMarks (marks : Nat) (text : List Char) :
    dropHexMarks (hexMarks marks ++ text) = dropHexMarks text := by
  induction marks with
  | zero => rfl
  | succ marks ih => exact ih

/-- A numeral does not begin with a dollar sign or a mark. -/
theorem drop_numeral (h : Numeral 16 numeral n) :
    dropDollars numeral = numeral ∧ dropHexMarks numeral = numeral := by
  constructor
  · rcases numeral with _ | ⟨c, rest⟩
    · rfl
    · have hc : (c == '$') ≠ true := by
        rw [ne_eq, beq_iff_eq]
        rintro rfl
        obtain ⟨ds, hds, -⟩ := (numeral_cons_iff_of_ne_plus (by decide)).mp h
        cases hds with
        | cons hd _ => exact not_isDigit_of_digitValue?_eq_none (by decide) rfl hd
      exact List.dropWhile_cons_of_neg hc
  · rw [dropHexMarks]
    rintro rest rfl
    obtain ⟨ds, hds, -⟩ := (numeral_cons_iff_of_ne_plus (by decide)).mp h
    cases hds with
    | cons _ hrest =>
      cases hrest with
      | cons hd _ => exact not_isDigit_of_digitValue?_eq_none (by decide) rfl hd

/-- What is left behind the dollar signs and the marks is a numeral just where the text writes an
    address. -/
theorem writesAddress_iff :
    WritesAddress text n ↔ Numeral 16 (dropHexMarks (dropDollars text)) n := by
  constructor
  · rintro ⟨count, marks, numeral, rfl, hnumeral⟩
    obtain ⟨hdollars, hmarks⟩ := drop_numeral hnumeral
    -- The dollar signs end at the first mark or, if there is none, at the numeral.
    have hdrop : dropDollars (hexMarks marks ++ numeral) = hexMarks marks ++ numeral := by
      cases marks with
      | zero => exact hdollars
      | succ marks => rfl
    rw [List.append_assoc, dropDollars_dollars, hdrop, dropHexMarks_hexMarks, hmarks]
    exact hnumeral
  · intro hnumeral
    obtain ⟨count, hcount⟩ := exists_dollars text
    obtain ⟨marks, hmarks⟩ := exists_hexMarks (dropDollars text)
    refine ⟨count, marks, _, ?_, hnumeral⟩
    rw [List.append_assoc, ← hmarks, ← hcount]

end

/-- A number that is read is kept as a word, and a fault is reported for what it is found in. -/
def toWord {α : Type} (ofNat : Nat → α) (fault : NumeralError → SettingsError) :
    Except NumeralError Nat → Except SettingsError α
  | .ok n => .ok (ofNat n)
  | .error cause => .error (fault cause)

/-- Which words are read, if there is one for each number within the limit. -/
theorem toWord_eq_ok_iff {α : Type} {read : Except NumeralError Nat} {Writes : Nat → Prop}
    {limit : Nat} {ofNat : Nat → α} {toNat : α → Nat} {fault : NumeralError → SettingsError} {a : α}
    (hread : ∀ n, read = .ok n ↔ Writes n ∧ n ≤ limit) (hlimit : ∀ a, toNat a ≤ limit)
    (htoNat : ∀ n ≤ limit, toNat (ofNat n) = n) (hofNat : ∀ a, ofNat (toNat a) = a) :
    toWord ofNat fault read = .ok a ↔ Writes (toNat a) := by
  cases hcase : read with
  | ok n =>
    obtain ⟨hwrites, hle⟩ := (hread n).mp hcase
    rw [toWord, Except.ok.injEq]
    constructor
    · rintro rfl
      rwa [htoNat n hle]
    · intro h
      have hsame := ((hread (toNat a)).mpr ⟨h, hlimit a⟩).symm.trans hcase
      rw [← Except.ok.inj hsame, hofNat]
  | error cause =>
    refine iff_of_false nofun fun h => ?_
    rw [(hread (toNat a)).mpr ⟨h, hlimit a⟩] at hcase
    exact nomatch hcase

/-- A word is written just where a number is that there is room for. -/
theorem exists_word_iff {α : Type} {ofNat : Nat → α} {toNat : α → Nat} {Room Writes : Nat → Prop}
    (hroom : ∀ a, Room (toNat a)) (htoNat : ∀ n, Room n → toNat (ofNat n) = n) :
    (∃ n, Room n ∧ Writes n) ↔ ∃ a, Writes (toNat a) := by
  constructor
  · rintro ⟨n, hn, h⟩
    refine ⟨ofNat n, ?_⟩
    rwa [htoNat n hn]
  · rintro ⟨a, h⟩
    exact ⟨toNat a, hroom a, h⟩

theorem readStartPc_eq (text : String) :
    readStartPc text = toWord UInt16.ofNat (.badStartPc text)
      (readNumeral 16 0xFFFF (dropHexMarks (dropDollars text.toList))) :=
  rfl

theorem readMaxSteps_eq (text : String) :
    readMaxSteps text = toWord UInt64.ofNat (.badMaxSteps text)
      (readNumeral 10 0xFFFFFFFFFFFFFFFF text.toList) :=
  rfl

/-- **A start address is read** where one is written that fits in 16 bits. -/
theorem readStartPc_eq_ok_iff {text : String} {pc : UInt16} :
    readStartPc text = .ok pc ↔ WritesAddress text.toList pc.toNat := by
  rw [readStartPc_eq]
  refine toWord_eq_ok_iff (fun n => ?_) (fun pc => Nat.le_of_lt_succ pc.toNat_lt)
    (fun n hn => UInt16.toNat_ofNat_of_lt' (Nat.lt_succ_of_le hn)) (fun _ => UInt16.ofNat_toNat)
  rw [readNumeral_eq_ok_iff (by decide) (by decide), writesAddress_iff]

/-- **A step limit is read** where a numeral is written that fits in 64 bits. -/
theorem readMaxSteps_eq_ok_iff {text : String} {count : UInt64} :
    readMaxSteps text = .ok count ↔ Numeral 10 text.toList count.toNat := by
  rw [readMaxSteps_eq]
  refine toWord_eq_ok_iff (fun n => ?_) (fun count => Nat.le_of_lt_succ count.toNat_lt)
    (fun n hn => UInt64.toNat_ofNat_of_lt' (Nat.lt_succ_of_le hn)) (fun _ => UInt64.ofNat_toNat)
  exact readNumeral_eq_ok_iff (by decide) (by decide)

/-- **A verbosity is read** where its word is written. -/
theorem readVerbosity_eq_ok_iff {text : String} {v : Verbosity} :
    readVerbosity text = .ok v ↔ v.WrittenAs text := by
  rw [← Verbosity.ofName?_eq_some_iff, readVerbosity]
  cases Verbosity.ofName? text with
  | none => exact iff_of_false nofun nofun
  | some w => rw [Except.ok.injEq, Option.some.injEq]

/-! ## Variables -/

section

variable {α : Type} {Writes : String → α → Prop} {value : Option String}
  {reader : String → Except SettingsError α}

/-- A variable that may be unset is read as its text is. -/
theorem readOptional_eq_ok_iff (hreader : ∀ text a, reader text = .ok a ↔ Writes text a)
    {given : Option α} : readOptional value reader = .ok given ↔ Option.Rel Writes value given := by
  rcases value with _ | text
  · rw [readOptional, Except.ok.injEq]
    constructor
    · rintro rfl
      exact .none
    · rintro ⟨⟩
      rfl
  · rw [readOptional]
    cases hread : reader text with
    | ok a =>
      rw [Except.map, Except.ok.injEq]
      constructor
      · rintro rfl
        exact .some ((hreader text a).mp hread)
      · rintro (hb | _)
        rw [Except.ok.inj (hread.symm.trans ((hreader text _).mpr hb))]
    | error e =>
      refine iff_of_false nofun ?_
      rintro (hb | _)
      exact nomatch hread.symm.trans ((hreader text _).mpr hb)

/-- Something is read of a variable unless it is set to a text that nothing is written with. -/
theorem exists_readOptional_iff (hreader : ∀ text a, reader text = .ok a ↔ Writes text a) :
    (∃ given, readOptional value reader = .ok given) ↔ ∀ text ∈ value, ∃ a, Writes text a := by
  simp only [readOptional_eq_ok_iff hreader]
  rcases value with _ | text
  · exact iff_of_true ⟨none, .none⟩ nofun
  · constructor
    · rintro ⟨_, ha | _⟩ _ ⟨⟩
      exact ⟨_, ha⟩
    · intro h
      obtain ⟨a, ha⟩ := h text rfl
      exact ⟨some a, .some ha⟩

theorem readOptional_startPc_eq_ok_iff {given : Option UInt16} :
    readOptional value readStartPc = .ok given ↔
      Option.Rel (fun text pc => WritesAddress text.toList pc.toNat) value given :=
  readOptional_eq_ok_iff fun _ _ => readStartPc_eq_ok_iff

theorem readOptional_maxSteps_eq_ok_iff {given : Option UInt64} :
    readOptional value readMaxSteps = .ok given ↔
      Option.Rel (fun text count => Numeral 10 text.toList count.toNat) value given :=
  readOptional_eq_ok_iff fun _ _ => readMaxSteps_eq_ok_iff

theorem readOptional_eq_error {e : SettingsError} (h : readOptional value reader = .error e) :
    ∃ text, reader text = .error e := by
  rcases value with _ | text
  · exact nomatch h
  · refine ⟨text, ?_⟩
    rw [readOptional] at h
    cases hread : reader text with
    | ok a =>
      rw [hread] at h
      exact nomatch h
    | error e' =>
      rw [hread] at h
      cases h
      rfl

end

/-! ## Inputs -/

/-- What the settings are read from. -/
inductive Input where
  | arguments
  | log
  | startPc
  | maxSteps

namespace Input

/-- The inputs in the order in which they are looked at. -/
def inOrder : List Input := [.arguments, .log, .startPc, .maxSteps]

/-- An input is understood: there is one argument, and a variable is unset or written as it should
    be. -/
def Fits (args : List String) (env : String → Option String) : Input → Prop
  | .arguments => ∃ romPath, args = [romPath]
  | .log => ∀ text ∈ env "NES6502_LOG", ∃ v : Verbosity, v.WrittenAs text
  | .startPc => ∀ text ∈ env "NES6502_START_PC", ∃ n ≤ 65535, WritesAddress text.toList n
  | .maxSteps => ∀ text ∈ env "NES6502_MAX_STEPS", ∃ n < 2 ^ 64, Numeral 10 text.toList n

/-- How a complaint about an input begins. -/
def label : Input → String
  | .arguments => "expected exactly one ROM path"
  | .log => "NES6502_LOG: "
  | .startPc => "NES6502_START_PC: "
  | .maxSteps => "NES6502_MAX_STEPS: "

end Input

/-- The input that a fault is found in. -/
def SettingsError.input : SettingsError → Input
  | .argumentCount => .arguments
  | .unknownLevel _ => .log
  | .badStartPc _ _ => .startPc
  | .badMaxSteps _ _ => .maxSteps

/-- Every fault is reported under the input that it is found in. -/
theorem SettingsError.label_prefix_message (e : SettingsError) :
    e.input.label.toList <+: e.message.toList := by
  have happend : ∀ {l : List Char} {front back : String},
      l <+: front.toList → l <+: (front ++ back).toList := by
    intro l front back h
    rw [String.toList_append]
    exact h.trans (List.prefix_append _ _)
  have hlog : Input.log.label.toList <+: (logVariable ++ ": unknown level ").toList := by decide
  have hstart : Input.startPc.label.toList <+:
      (startPcVariable ++ ": not a hex address: ").toList := by decide
  have hmax : Input.maxSteps.label.toList <+:
      (maxStepsVariable ++ ": not a count: ").toList := by decide
  cases e with
  | argumentCount => exact List.prefix_rfl
  | unknownLevel text => exact happend hlog
  | badStartPc text cause => exact happend (happend (happend hstart))
  | badMaxSteps text cause => exact happend (happend (happend hmax))

theorem input_of_toWord {α : Type} {read : Except NumeralError Nat} {ofNat : Nat → α}
    {fault : NumeralError → SettingsError} {input : Input} {e : SettingsError}
    (hfault : ∀ cause, (fault cause).input = input) (h : toWord ofNat fault read = .error e) :
    e.input = input := by
  cases read with
  | ok n => exact nomatch h
  | error cause =>
    cases h
    exact hfault cause

theorem input_of_readStartPc {text : String} {e : SettingsError}
    (h : readStartPc text = .error e) : e.input = .startPc := by
  rw [readStartPc_eq] at h
  exact input_of_toWord (fun _ => rfl) h

theorem input_of_readMaxSteps {text : String} {e : SettingsError}
    (h : readMaxSteps text = .error e) : e.input = .maxSteps := by
  rw [readMaxSteps_eq] at h
  exact input_of_toWord (fun _ => rfl) h

/-- The verbosity that a variable stands for, if it is unset or has a certain text. -/
def VerbosityGiven : Option String → Verbosity → Prop
  | none, v => v = .upTo .info
  | some text, v => v.WrittenAs text

theorem input_of_readVerbosity {text : String} {e : SettingsError}
    (h : readVerbosity text = .error e) : e.input = .log := by
  rw [readVerbosity] at h
  split at h
  · exact nomatch h
  · cases h
    rfl

/-- The settings are what the inputs say. -/
structure Settings.Given (args : List String) (env : String → Option String) (s : Settings) :
    Prop where
  romPath : args = [s.romPath]
  verbosity : VerbosityGiven (env "NES6502_LOG") s.verbosity
  startPc : Option.Rel (fun text pc => WritesAddress text.toList pc.toNat)
    (env "NES6502_START_PC") s.startPc
  maxSteps : Option.Rel (fun text count => Numeral 10 text.toList count.toNat)
    (env "NES6502_MAX_STEPS") s.maxSteps

theorem verbosityGiven_iff {value : Option String} {v : Verbosity} :
    VerbosityGiven value v ↔
      ∃ given, readOptional value readVerbosity = .ok given ∧ given.getD (.upTo .info) = v := by
  simp only [readOptional_eq_ok_iff fun _ _ => readVerbosity_eq_ok_iff]
  rcases value with _ | text
  · constructor
    · rintro rfl
      exact ⟨none, .none, rfl⟩
    · rintro ⟨_, ⟨⟩, rfl⟩
      rfl
  · constructor
    · intro h
      exact ⟨some v, .some h, rfl⟩
    · rintro ⟨_, hv | _, rfl⟩
      exact hv

/-! ## All together -/

section

variable {ε α β : Type} {x : Except ε α} {f : α → Except ε β}

theorem bind_eq_ok_iff {b : β} : x >>= f = .ok b ↔ ∃ a, x = .ok a ∧ f a = .ok b := by
  cases x with
  | ok a => exact ⟨fun h => ⟨a, rfl, h⟩, fun ⟨_, rfl, h⟩ => h⟩
  | error e => exact iff_of_false nofun nofun

theorem bind_eq_error_iff {e : ε} :
    x >>= f = .error e ↔ x = .error e ∨ ∃ a, x = .ok a ∧ f a = .error e := by
  cases x with
  | ok a => exact ⟨fun h => .inr ⟨a, rfl, h⟩, fun | .inr ⟨_, rfl, h⟩ => h⟩
  | error e' =>
    constructor
    · rintro ⟨⟩
      exact .inl rfl
    · rintro (⟨⟨⟩⟩ | ⟨_, ⟨⟩, _⟩)
      rfl

theorem not_exists_eq_ok {e : ε} (h : x = .error e) : ¬ ∃ a, x = .ok a := by
  rintro ⟨a, ha⟩
  exact nomatch h.symm.trans ha

end

section

variable {args : List String} {env : String → Option String}

/-- **The settings that are read** are those that the inputs say. -/
theorem read_eq_ok_iff {s : Settings} : Settings.read args env = .ok s ↔ s.Given args env := by
  rcases args with _ | ⟨romPath, _ | ⟨second, rest⟩⟩
  · exact iff_of_false nofun fun h => nomatch h.romPath
  · rw [Settings.read]
    simp only [bind_eq_ok_iff]
    constructor
    · rintro ⟨verbosity, hlog, startPc, hstart, maxSteps, hmax, ⟨⟩⟩
      exact ⟨rfl, verbosityGiven_iff.mpr ⟨verbosity, hlog, rfl⟩,
        readOptional_startPc_eq_ok_iff.mp hstart, readOptional_maxSteps_eq_ok_iff.mp hmax⟩
    · rintro ⟨hrom, hlog, hstart, hmax⟩
      obtain ⟨verbosity, hverbosity, hdefault⟩ := verbosityGiven_iff.mp hlog
      refine ⟨verbosity, hverbosity, s.startPc,
        readOptional_startPc_eq_ok_iff.mpr hstart, s.maxSteps,
        readOptional_maxSteps_eq_ok_iff.mpr hmax, ?_⟩
      rw [hdefault, List.singleton_inj.mp hrom]
      rfl
  · exact iff_of_false nofun fun h => nomatch h.romPath

theorem fits_log_iff : Input.log.Fits args env ↔
    ∃ given, readOptional (env logVariable) readVerbosity = .ok given :=
  (exists_readOptional_iff fun _ _ => readVerbosity_eq_ok_iff).symm

theorem fits_startPc_iff : Input.startPc.Fits args env ↔
    ∃ given, readOptional (env startPcVariable) readStartPc = .ok given := by
  rw [exists_readOptional_iff fun _ _ => readStartPc_eq_ok_iff]
  exact forall₂_congr fun _ _ => exists_word_iff (fun pc => Nat.le_of_lt_succ pc.toNat_lt)
    fun n hn => UInt16.toNat_ofNat_of_lt' (Nat.lt_succ_of_le hn)

theorem fits_maxSteps_iff : Input.maxSteps.Fits args env ↔
    ∃ given, readOptional (env maxStepsVariable) readMaxSteps = .ok given := by
  rw [exists_readOptional_iff fun _ _ => readMaxSteps_eq_ok_iff]
  exact forall₂_congr fun _ _ => exists_word_iff (fun count => count.toNat_lt)
    fun n hn => UInt64.toNat_ofNat_of_lt' hn

/-- The start address is the one that is written. -/
theorem Settings.Given.startPc_eq {s : Settings} (h : s.Given args env) {text : String}
    (henv : env "NES6502_START_PC" = some text) {address : UInt16}
    (hwrites : WritesAddress text.toList address.toNat) : s.startPc = some address := by
  have hrel : Option.Rel (fun text pc => WritesAddress text.toList pc.toNat)
      (some text) s.startPc := henv ▸ h.startPc
  have hread : readOptional (some text) readStartPc = .ok s.startPc :=
    readOptional_startPc_eq_ok_iff.mpr hrel
  rw [readOptional, readStartPc_eq_ok_iff.mpr hwrites] at hread
  exact (Except.ok.inj hread).symm

/-- A fault is found in the input that it names, and those that are looked at before it fit. -/
theorem read_eq_error {e : SettingsError} (h : Settings.read args env = .error e) :
    ∃ earlier later, Input.inOrder = earlier ++ e.input :: later ∧
      (∀ other ∈ earlier, other.Fits args env) ∧ ¬ e.input.Fits args env := by
  rcases args with _ | ⟨romPath, _ | ⟨second, rest⟩⟩
  · cases h
    exact ⟨[], _, rfl, nofun, nofun⟩
  · have hargs : Input.arguments.Fits [romPath] env := ⟨romPath, rfl⟩
    rw [Settings.read] at h
    simp only [bind_eq_error_iff] at h
    -- A variable is looked at only if something has been read of those before it.
    rcases h with hlog | ⟨_, hlog, hstart | ⟨_, hstart, hmax | ⟨_, _, hnever⟩⟩⟩
    · obtain ⟨text, htext⟩ := readOptional_eq_error hlog
      rw [input_of_readVerbosity htext]
      refine ⟨[.arguments], _, rfl, ?_, ?_⟩
      · simpa using hargs
      · exact fits_log_iff.not.mpr (not_exists_eq_ok hlog)
    · obtain ⟨text, htext⟩ := readOptional_eq_error hstart
      rw [input_of_readStartPc htext]
      refine ⟨[.arguments, .log], _, rfl, ?_, ?_⟩
      · simpa using ⟨hargs, fits_log_iff.mpr ⟨_, hlog⟩⟩
      · exact fits_startPc_iff.not.mpr (not_exists_eq_ok hstart)
    · obtain ⟨text, htext⟩ := readOptional_eq_error hmax
      rw [input_of_readMaxSteps htext]
      refine ⟨[.arguments, .log, .startPc], _, rfl, ?_, ?_⟩
      · simpa using ⟨hargs, fits_log_iff.mpr ⟨_, hlog⟩, fits_startPc_iff.mpr ⟨_, hstart⟩⟩
      · exact fits_maxSteps_iff.not.mpr (not_exists_eq_ok hmax)
    · exact nomatch hnever
  · cases h
    exact ⟨[], _, rfl, nofun, nofun⟩

/-- Settings are read just if all inputs fit. -/
theorem exists_read_iff :
    (∃ s, Settings.read args env = .ok s) ↔ ∀ input, Input.Fits args env input := by
  constructor
  · rintro ⟨s, hs⟩
    have hgiven := read_eq_ok_iff.mp hs
    have hlog := verbosityGiven_iff.mp hgiven.verbosity
    intro input
    cases input with
    | arguments => exact ⟨_, hgiven.romPath⟩
    | log => exact fits_log_iff.mpr (hlog.imp fun _ h => h.1)
    | startPc =>
      exact fits_startPc_iff.mpr ⟨_, readOptional_startPc_eq_ok_iff.mpr hgiven.startPc⟩
    | maxSteps =>
      exact fits_maxSteps_iff.mpr ⟨_, readOptional_maxSteps_eq_ok_iff.mpr hgiven.maxSteps⟩
  · intro hfits
    cases hread : Settings.read args env with
    | ok s => exact ⟨s, rfl⟩
    | error e =>
      obtain ⟨_, _, -, -, hnot⟩ := read_eq_error hread
      exact absurd (hfits e.input) hnot

end

/-! ## Printed addresses -/

/-- An address as it is printed: a mark, zeros to fill up, and the digits in base 16. -/
def printed (mark : String) (zeros : Nat) (letters : Char → Char) (address : UInt16) : String :=
  mark ++ String.ofList
    (List.replicate zeros '0' ++ (Nat.toDigits 16 address.toNat).map letters)

/-- **What prints an address** writes it. -/
theorem writesAddress_printed {mark : String} (hmark : mark ∈ ["", "$", "0x"]) (zeros : Nat)
    {letters : Char → Char} (hletters : letters = id ∨ letters = Char.toUpper) (address : UInt16) :
    WritesAddress (printed mark zeros letters address).toList address.toNat := by
  have hmarks : ∀ mark ∈ ["", "$", "0x"],
      ∃ count < 2, ∃ marks < 2, mark.toList = dollars count ++ hexMarks marks := by decide
  have hdigits : ∀ d < 16, IsDigit 16 (letters (Nat.digitChar d)) d := by
    rcases hletters with rfl | rfl <;> unfold IsDigit <;> decide
  obtain ⟨count, -, marks, -, htoList⟩ := hmarks mark hmark
  refine ⟨count, marks, List.replicate zeros '0' ++ (Nat.toDigits 16 address.toNat).map letters,
    ?_, [], _, rfl, .inl rfl, ?_, ?_⟩
  · rw [printed, String.toList_append, htoList, String.toList_ofList]
  · exact List.append_ne_nil_of_right_ne_nil _ (mt List.map_eq_nil_iff.mp Nat.toDigits_ne_nil)
  · exact (spells_toDigits (by decide) hdigits address.toNat).zeros (by decide) zeros

/-- **The settings are read by their grammar.**  They are read just if every input fits, and then
    are what the inputs say; otherwise the first input that does not fit is reported.  An address
    that is printed, with or without a mark, with any number of zeros and in either case, is read
    as itself. -/
theorem settings_follow_grammar (args : List String) (env : String → Option String) :
    ((∃ s, Settings.read args env = .ok s) ↔ ∀ input, Input.Fits args env input) ∧
    (∀ s, Settings.read args env = .ok s ↔ s.Given args env) ∧
    (∀ e, Settings.read args env = .error e →
      ∃ earlier input later, Input.inOrder = earlier ++ input :: later ∧
        (∀ other ∈ earlier, other.Fits args env) ∧ ¬ input.Fits args env ∧
        input.label.toList <+: e.message.toList) ∧
    (∀ mark zeros letters address, mark ∈ ["", "$", "0x"] → letters = id ∨ letters = Char.toUpper →
      env "NES6502_START_PC" = some (printed mark zeros letters address) →
      Input.startPc.Fits args env ∧
        ∀ s, Settings.read args env = .ok s → s.startPc = some address) := by
  refine ⟨exists_read_iff, fun s => read_eq_ok_iff, fun e he => ?_, ?_⟩
  · obtain ⟨earlier, later, horder, hearlier, hnot⟩ := read_eq_error he
    exact ⟨earlier, e.input, later, horder, hearlier, hnot, e.label_prefix_message⟩
  · intro mark zeros letters address hmark hletters henv
    have hwrites := writesAddress_printed hmark zeros hletters address
    constructor
    · intro text htext
      obtain rfl := Option.some.inj (henv.symm.trans htext)
      exact ⟨address.toNat, Nat.le_of_lt_succ address.toNat_lt, hwrites⟩
    · intro s hs
      exact (read_eq_ok_iff.mp hs).startPc_eq henv hwrites

theorem settings_follow_grammar_marked_address :
    (∃ s, Settings.read ["game.nes"]
        (fun name => if name = "NES6502_START_PC" then some "$0C0DE" else none) = .ok s ∧
      s.startPc = some 0xC0DE) ∧
    (∃ earlier input later, Input.inOrder = earlier ++ input :: later ∧
      (∀ other ∈ earlier, other.Fits ["game.nes"] fun _ => some "+7") ∧
      ¬ input.Fits ["game.nes"] (fun _ => some "+7") ∧
      input.label.toList <+: (SettingsError.unknownLevel "+7").message.toList) := by
  constructor
  · obtain ⟨-, -, -, hprinted⟩ := settings_follow_grammar ["game.nes"]
      fun name => if name = "NES6502_START_PC" then some "$0C0DE" else none
    have hread : Settings.read ["game.nes"]
        (fun name => if name = "NES6502_START_PC" then some "$0C0DE" else none) =
        .ok ⟨"game.nes", .upTo .info, some 0xC0DE, none⟩ := by decide
    have hitself := hprinted "$" 1 Char.toUpper 0xC0DE (by decide) (.inr rfl) (by decide)
    exact ⟨_, hread, hitself.2 _ hread⟩
  · obtain ⟨-, -, herror, -⟩ := settings_follow_grammar ["game.nes"] fun _ => some "+7"
    exact herror (.unknownLevel "+7") (by decide)

end Run
end Nes
