/-
  Watching: a machine does the same whether it is watched or not.

  A step reports its trace line if the run is talkative enough, and a caller may ask for the trace
  line between steps.  Either way the bytes of the instruction are read once more, in the middle of
  the run and over the same bus.  On memory that does not react to being read nothing of this shows:

  1. **Reading leaves nothing behind**: what only reads may come before anything and changes neither
     its answer nor the bus it leaves (`ActsAs.forget`).
  2. **One step**: it comes to the same and leaves the same machine, traced or not (`next_eq`).
  3. **Plans**: what a caller sees of the steps of a machine is told by their number alone, whatever
     the verbosity at each of them and wherever trace lines are asked for (`follow_eq_quiet`).

  The records are not the same, of course; they are what a watcher is there for.
-/
import Nes.Proofs.Cpu.Attempts
import Nes.Proofs.Cpu.Stepping

namespace Nes

namespace Traffic

variable {α β γ : Type} [Bus β] [PassiveBus β]

/-- What only reads may be left out before anything, if its answer is known. -/
theorem ActsAs.forget {t : Traffic α} {f : α → Traffic γ} {bus : β} {cells : List UInt16} {a : α}
    (ht : t.ActsAs bus cells [] a) :
    ((t >>= f).perform bus).answer = ((f a).perform bus).answer ∧
      ((t >>= f).perform bus).bus = ((f a).perform bus).bus := by
  have hbus : (t.perform bus).bus = bus := ht.bus_eq
  rw [perform_bind]
  dsimp only
  rw [ht.answer_eq, hbus]
  exact ⟨rfl, rfl⟩

end Traffic

namespace Cpu

open Nes.Traffic (ActsAs)

/-! ## One step -/

section

variable {β : Type} [Bus β] [PassiveBus β] (bus : β) (r : Registers)

/-- Of the trace of an instruction nothing is left but its record. -/
theorem Registers.forget_trace (tracing : Bool) (t : Traffic Stepped) :
    ((r.trace tracing >>= fun _ => t).perform bus).answer = (t.perform bus).answer ∧
      ((r.trace tracing >>= fun _ => t).perform bus).bus = (t.perform bus).bus :=
  (r.actsAs_trace bus tracing).forget

/-- **A step comes to the same, traced or not**, and leaves the same bus. -/
theorem Registers.perform_step_eq (tracing quiet : Bool) :
    ((r.step tracing).perform bus).answer = ((r.step quiet).perform bus).answer ∧
      ((r.step tracing).perform bus).bus = ((r.step quiet).perform bus).bus := by
  have hopcode := ActsAs.of_ofReads (Traffic.perform_readByte r.pc bus)
  rw [step, step, hopcode.forget.1, hopcode.forget.2, hopcode.forget.1, hopcode.forget.2]
  cases Instruction.decode? (Bus.peek bus r.pc) with
  | none => exact ⟨rfl, rfl⟩
  | some i =>
    cases himplemented : i.isImplemented with
    | false =>
      simp only [himplemented]
      exact ⟨rfl, rfl⟩
    | true =>
      simp only [himplemented, if_true]
      obtain ⟨hanswer, hbus⟩ := r.forget_trace bus tracing (i.execute r)
      obtain ⟨hanswer', hbus'⟩ := r.forget_trace bus quiet (i.execute r)
      exact ⟨hanswer.trans hanswer'.symm, hbus.trans hbus'.symm⟩

end

/-! ## Plans -/

/-- What a caller may ask of a machine. -/
inductive Request where
  /-- A step, in a run of the given verbosity. -/
  | step (verbosity : Verbosity)
  /-- The trace line of the instruction at PC. -/
  | traceLine
  deriving DecidableEq

/-- Whether a step is asked for. -/
def Request.isStep : Request → Bool
  | .step _ => true
  | .traceLine => false

/-- What is seen of a step: what it came to, and the machine that it left. -/
structure Seen (β : Type) where
  outcome : Except StepError UInt8
  machine : Machine β

namespace Machine

variable {β : Type} [Bus β]

/-- The machine after its trace line has been made. -/
def afterTraceLine (m : Machine β) : Machine β :=
  ⟨m.registers, (m.registers.traceLine.perform m.bus).bus⟩

/-- The machine after a request. -/
def serve (m : Machine β) : Request → Machine β
  | .step verbosity => m.next verbosity.tracing
  | .traceLine => m.afterTraceLine

/-- The machine after all requests of a plan. -/
def serveAll (m : Machine β) (plan : List Request) : Machine β := plan.foldl serve m

/-- What is seen of each step of a plan. -/
def follow (m : Machine β) : List Request → List (Seen β)
  | [] => []
  | .step verbosity :: rest =>
    ⟨(m.step verbosity.tracing).answer.outcome, m.next verbosity.tracing⟩ ::
      (m.next verbosity.tracing).follow rest
  | .traceLine :: rest => m.afterTraceLine.follow rest

theorem run_succ (m : Machine β) (tracing : Bool) (count : Nat) :
    run tracing (count + 1) m =
      match (m.step tracing).answer.outcome with
      | .error failure =>
        ⟨m.next tracing, [], some failure, (m.step tracing).accesses, (m.step tracing).records⟩
      | .ok _ =>
        { run tracing count (m.next tracing) with
          states := (m.next tracing).registers :: (run tracing count (m.next tracing)).states
          accesses := (m.step tracing).accesses ++ (run tracing count (m.next tracing)).accesses
          records := (m.step tracing).records ++ (run tracing count (m.next tracing)).records } :=
  rfl

variable [PassiveBus β] (m : Machine β)

theorem next_eq (tracing quiet : Bool) : m.next tracing = m.next quiet := by
  obtain ⟨hanswer, hbus⟩ := m.registers.perform_step_eq m.bus tracing quiet
  show Machine.mk ((m.registers.step tracing).perform m.bus).answer.registers
    ((m.registers.step tracing).perform m.bus).bus = _
  rw [hanswer, hbus]
  rfl

theorem outcome_eq (tracing quiet : Bool) :
    (m.step tracing).answer.outcome = (m.step quiet).answer.outcome :=
  congrArg Stepped.outcome (m.registers.perform_step_eq m.bus tracing quiet).1

/-- Making a trace line leaves the machine as it is. -/
theorem afterTraceLine_eq : m.afterTraceLine = m := by
  have hbus : (m.registers.traceLine.perform m.bus).bus = m.bus :=
    (m.registers.actsAs_traceLine m.bus).bus_eq
  rw [afterTraceLine, hbus]

/-- What is seen of a plan is seen of as many silent steps, and the machine left is the same. -/
theorem follow_eq_quiet (plan : List Request) :
    let quiet := List.replicate (plan.countP Request.isStep) (Request.step .off)
    m.follow plan = m.follow quiet ∧ m.serveAll plan = m.serveAll quiet := by
  induction plan generalizing m with
  | nil => exact ⟨rfl, rfl⟩
  | cons request rest ih =>
    cases request with
    | step verbosity =>
      have hcount : (Request.step verbosity :: rest).countP Request.isStep =
          rest.countP Request.isStep + 1 := List.countP_cons_of_pos rfl
      obtain ⟨hfollow, hserve⟩ := ih (m.next Verbosity.off.tracing)
      have hnext := m.next_eq verbosity.tracing Verbosity.off.tracing
      have houtcome := m.outcome_eq verbosity.tracing Verbosity.off.tracing
      intro quiet
      have hquiet : quiet = .step .off :: List.replicate (rest.countP Request.isStep)
          (.step .off) := by
        dsimp only [quiet]
        rw [hcount, List.replicate_succ]
      rw [hquiet]
      constructor
      · rw [follow, follow, hnext, houtcome, hfollow]
      · show (m.next verbosity.tracing).serveAll rest = _
        rw [hnext, hserve]
        rfl
    | traceLine =>
      have hcount : (Request.traceLine :: rest).countP Request.isStep =
          rest.countP Request.isStep := List.countP_cons_of_neg (by decide)
      obtain ⟨hfollow, hserve⟩ := ih m
      intro quiet
      dsimp only [quiet]
      rw [hcount]
      constructor
      · rw [follow, afterTraceLine_eq, hfollow]
      · show m.afterTraceLine.serveAll rest = _
        rw [afterTraceLine_eq, hserve]

/-- A run that stops where a step fails stops at the same step and shows the same states. -/
theorem run_eq (tracing quiet : Bool) (count : Nat) :
    (run tracing count m).machine = (run quiet count m).machine ∧
      (run tracing count m).states = (run quiet count m).states ∧
      (run tracing count m).failure = (run quiet count m).failure := by
  induction count generalizing m with
  | zero => exact ⟨rfl, rfl, rfl⟩
  | succ count ih =>
    rw [run_succ, run_succ, m.outcome_eq tracing quiet, m.next_eq tracing quiet]
    cases (m.step quiet).answer.outcome with
    | error failure => exact ⟨rfl, rfl, rfl⟩
    | ok cycles =>
      obtain ⟨hmachine, hstates, hfailure⟩ := ih (m.next quiet)
      exact ⟨hmachine, congrArg ((m.next quiet).registers :: ·) hstates, hfailure⟩

/-- **Watching changes nothing.**  On memory that does not react to being read, two runs of any
    length at any two verbosities come to the same at each step and leave the same machine after
    each; and asking for trace lines between the steps, at any places and any number of times,
    changes none of this. -/
theorem watching_changes_nothing :
    (∀ (count : Nat) (v w : Verbosity),
      m.follow (List.replicate count (.step v)) = m.follow (List.replicate count (.step w)) ∧
        (run v.tracing count m).machine = (run w.tracing count m).machine ∧
        (run v.tracing count m).states = (run w.tracing count m).states ∧
        (run v.tracing count m).failure = (run w.tracing count m).failure) ∧
    ∀ plan : List Request,
      m.follow plan = m.follow (plan.filter Request.isStep) ∧
        m.serveAll plan = m.serveAll (plan.filter Request.isStep) := by
  constructor
  · intro count v w
    have hquiet : ∀ u : Verbosity, m.follow (List.replicate count (.step u)) =
        m.follow (List.replicate count (.step .off)) := by
      intro u
      have hcount : (List.replicate count (Request.step u)).countP Request.isStep = count := by
        simp [List.countP_replicate, Request.isStep]
      rw [(m.follow_eq_quiet (List.replicate count (.step u))).1, hcount]
    exact ⟨(hquiet v).trans (hquiet w).symm, m.run_eq v.tracing w.tracing count⟩
  · intro plan
    have hcount : (plan.filter Request.isStep).countP Request.isStep =
        plan.countP Request.isStep := by
      simp [List.countP_filter]
    obtain ⟨hfollow, hserve⟩ := m.follow_eq_quiet plan
    obtain ⟨hfollow', hserve'⟩ := m.follow_eq_quiet (plan.filter Request.isStep)
    rw [hcount] at hfollow' hserve'
    exact ⟨hfollow.trans hfollow'.symm, hserve.trans hserve'.symm⟩

/-- `STA $10` and `LDA $10` from a cartridge: nothing that is seen of the two steps tells whether
    they were traced, or whether trace lines were asked for on the way. -/
theorem watching_changes_nothing_store_load :
    let header : Header := ⟨1, 1, 1, .horizontal, false, false, false, false, false, 0, .ntsc⟩
    let board : Nrom := ⟨⟨#[0x85, 0x10, 0xA5, 0x10]⟩, .horizontal, by decide⟩
    let m : Machine MemoryMap :=
      ⟨{ Registers.powerUp with a := 0x42, pc := 0x8000 }, .ofCartridge ⟨header, ⟨#[]⟩, board⟩⟩
    m.follow [.traceLine, .step (.upTo .trace), .traceLine, .traceLine, .step (.upTo .trace)] =
      m.follow [.step .off, .step .off] := by
  intro header board m
  obtain ⟨hlevels, hplans⟩ := m.watching_changes_nothing
  have hlines := (hplans
    [.traceLine, .step (.upTo .trace), .traceLine, .traceLine, .step (.upTo .trace)]).1
  exact hlines.trans (hlevels 2 (.upTo .trace) .off).1

end Machine

end Cpu

end Nes
