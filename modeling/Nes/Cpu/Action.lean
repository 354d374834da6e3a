/-
  Actions: what each operation does with its operand.

  `Operation.action?` pairs an operation with an operand and gives, where the two suit each other,
  what happens then: the registers change, and bytes go over the bus in a fixed order.  A store
  never reads its cell; what changes a byte in its place reads it once and writes it once.

  The stack is page one, filled from above: a push stores and then moves SP down, a pull moves SP up
  and then reads.  A word is pushed high byte first, so that it lies in memory low byte first.
-/
import Nes.Cpu.Operand

namespace Nes.Cpu

/-! ## The stack -/

/-- The stack cell that the byte `sp` names. -/
def stackAddress (sp : UInt8) : UInt16 := word sp 0x01

namespace Registers

/-- Pushes a byte. -/
def push (r : Registers) (value : UInt8) : Traffic Registers := do
  Traffic.writeByte (stackAddress r.sp) value
  return { r with sp := r.sp - 1 }

/-- Pulls the byte that was pushed last. -/
def pull (r : Registers) : Traffic (UInt8 × Registers) := do
  let r := { r with sp := r.sp + 1 }
  let value ← Traffic.readByte (stackAddress r.sp)
  return (value, r)

/-- Pushes a word. -/
def pushWord (r : Registers) (value : UInt16) : Traffic Registers := do
  let r ← r.push (highByte value)
  r.push (lowByte value)

/-- Pulls a word. -/
def pullWord (r : Registers) : Traffic (UInt16 × Registers) := do
  let (lo, r) ← r.pull
  let (hi, r) ← r.pull
  return (word lo hi, r)

/-! ## Arithmetic and flags -/

/-- Adds a byte and the carry to A.  The decimal flag plays no part. -/
def addToA (r : Registers) (value : UInt8) : Registers :=
  let sum := r.a.toUInt16 + value.toUInt16 + r.carryIn.toUInt16
  let result := lowByte sum
  let overflow := testBit ((r.a ^^^ result) &&& (value ^^^ result)) 7
  let r := (r.putFlag .overflow overflow).putFlag .carry (0xFF < sum)
  { r with a := result }.putNZ result

/-- Compares a register's byte with another: the flags are those of the difference. -/
def compareWith (r : Registers) (register value : UInt8) : Registers :=
  (r.putFlag .carry (value ≤ register)).putNZ (register - value)

/-- Takes a branch: one cycle more, and two more where the target lies in another page. -/
def takeBranch (r : Registers) (distance : Int8) : Registers :=
  let target := r.pc + signExtend distance
  let penalty := if highByte target != highByte r.pc then 3 else 1
  { r with pc := target, stepCycles := r.stepCycles + penalty }

end Registers

/-- Moves a byte from register to register; every move but the one to SP sets the flags. -/
def Transfer.apply (r : Registers) : Transfer → Registers
  | .aToX => { r with x := r.a }.putNZ r.a
  | .aToY => { r with y := r.a }.putNZ r.a
  | .xToA => { r with a := r.x }.putNZ r.x
  | .yToA => { r with a := r.y }.putNZ r.y
  | .spToX => { r with x := r.sp }.putNZ r.sp
  | .xToSp => { r with sp := r.x }

/-- Combines two bytes bit by bit. -/
def Logic.apply : Logic → UInt8 → UInt8 → UInt8
  | .and, a, b => a &&& b
  | .or, a, b => a ||| b
  | .xor, a, b => a ^^^ b

/-- The byte moved by one bit; `carry` comes in where the way is a rotation. -/
def Shift.result (value : UInt8) (carry : Bool) : Shift → UInt8
  | .shiftLeft => value <<< 1
  | .shiftRight => value >>> 1
  | .rotateLeft => writeBit (value <<< 1) 0 carry
  | .rotateRight => writeBit (value >>> 1) 7 carry

/-- The bit that moves out of the byte. -/
def Shift.carryOut (value : UInt8) : Shift → Bool
  | .shiftLeft | .rotateLeft => testBit value 7
  | .shiftRight | .rotateRight => testBit value 0

/-! ## Reaching the operand -/

namespace Operand

/-- How the operand's value is had, if it has one. -/
def value? : Operand → Option (Registers → Traffic UInt8)
  | .accumulator => some fun r => return r.a
  | .immediate value => some fun _ => return value
  | .address addr => some fun _ => Traffic.readByte addr
  | .implied | .relative _ => none

/-- How a byte is put in the operand's place, if it has one. -/
def place? : Operand → Option (UInt8 → Registers → Traffic Registers)
  | .accumulator => some fun value r => return { r with a := value }
  | .address addr => some fun value r => do
    Traffic.writeByte addr value
    return r
  | .implied | .immediate _ | .relative _ => none

/-- The address of the operand, if it is a cell. -/
def address? : Operand → Option UInt16
  | .address addr => some addr
  | _ => none

/-- The distance that the operand means, if it is one. -/
def distance? : Operand → Option Int8
  | .relative distance => some distance
  | _ => none

/-- What is done with the operand's value, if it has one. -/
def using? (operand : Operand) (f : UInt8 → Registers → Registers) :
    Option (Registers → Traffic Registers) :=
  operand.value?.map fun value r => do
    let v ← value r
    return f v r

/-- How the operand's value is changed in its place, if that can be done: `f` is the new value, and
    `flags` what the old one says about the flags beside zero and negative. -/
def modify? (operand : Operand) (f : UInt8 → Registers → UInt8)
    (flags : UInt8 → Registers → Registers) : Option (Registers → Traffic Registers) :=
  match operand.value?, operand.place? with
  | some value, some place => some fun r => do
    let old ← value r
    let new := f old r
    let r ← place new (flags old r)
    return r.putNZ new
  | _, _ => none

end Operand

/-! ## Every operation -/

/-- What an operation does with an operand, if the two suit each other. -/
def Operation.action? : Operation → Operand → Option (Registers → Traffic Registers)
  | .load target, operand => operand.using? fun v r => (r.put target v).putNZ v
  | .store source, operand => operand.place?.map fun place r => place (r.get source) r
  | .transfer move, _ => some fun r => return move.apply r
  | .pushA, _ => some fun r => r.push r.a
  | .pushStatus, _ => some fun r => r.push r.status.pushed
  | .pullA, _ => some fun r => do
    let (v, r) ← r.pull
    return { r with a := v }.putNZ v
  | .pullStatus, _ => some fun r => do
    let (v, r) ← r.pull
    return { r with status := r.status.pull v }
  | .logic connective, operand => operand.using? fun v r =>
    let result := connective.apply r.a v
    { r with a := result }.putNZ result
  | .testBits, operand => operand.using? fun v r =>
    ((r.putFlag .zero (r.a &&& v == 0)).putFlag .negative (testBit v 7)).putFlag .overflow
      (testBit v 6)
  | .add, operand => operand.using? fun v r => r.addToA v
  | .subtract, operand => operand.using? fun v r => r.addToA (~~~ v)
  | .compare register, operand => operand.using? fun v r => r.compareWith (r.get register) v
  | .adjust direction, operand => operand.modify? (fun v _ => direction.step v) fun _ r => r
  | .count index direction, _ => some fun r =>
    let result := direction.step (r.get index.register)
    return (r.put index.register result).putNZ result
  | .shift way, operand =>
    operand.modify? (fun v r => way.result v (r.status.get .carry)) fun v r =>
      r.putFlag .carry (way.carryOut v)
  | .jump, operand => operand.address?.map fun target r => return { r with pc := target }
  | .callSubroutine, operand => operand.address?.map fun target r => do
    let r ← r.pushWord (r.pc - 1)
    return { r with pc := target }
  | .returnFromSubroutine, _ => some fun r => do
    let (back, r) ← r.pullWord
    return { r with pc := back + 1 }
  | .returnFromInterrupt, _ => some fun r => do
    let (v, r) ← r.pull
    let (back, r) ← r.pullWord
    return { r with status := .pullForced v, pc := back }
  | .softwareInterrupt, _ => none
  | .branch condition wanted, operand => operand.distance?.map fun distance r =>
    return if r.status.get condition.flag = wanted then r.takeBranch distance else r
  | .switch flag on, _ => some fun r => return r.putFlag flag.flag on
  | .clearOverflow, _ => some fun r => return r.putFlag .overflow false
  | .idle, _ => some fun r => return r

end Nes.Cpu
