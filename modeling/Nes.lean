import Nes.Main
import Nes.Bus.Ram
import Nes.Proofs.Bus.Passive
import Nes.Proofs.Cpu.Finding
import Nes.Proofs.Cpu.Effect
import Nes.Proofs.Cpu.Stepping
import Nes.Proofs.Cpu.Attempts
import Nes.Proofs.Cpu.Failing
import Nes.Proofs.Cpu.Arithmetic
import Nes.Proofs.Cpu.GroupOne
import Nes.Proofs.Cpu.Wires
import Nes.Proofs.Bus.Shadow
import Nes.Proofs.Cpu.Transfer
import Nes.Proofs.Bus.Heard
import Nes.Proofs.Cpu.Cycles
import Nes.Proofs.Cpu.Watching
import Nes.Proofs.Bus.Cells
import Nes.Proofs.Cartridge.Acceptance
import Nes.Proofs.Cpu.Executing
import Nes.Proofs.Cpu.Ownership
import Nes.Proofs.Cpu.StatusHistory
import Nes.Proofs.Cartridge.Window
import Nes.Proofs.Bus.Backing
import Nes.Proofs.Cpu.Strict
import Nes.Proofs.Cpu.Reaching
import Nes.Proofs.Cpu.Influence
import Nes.Proofs.Cpu.Stack
import Nes.Proofs.Cpu.Subroutines
import Nes.Proofs.Bus.Making
import Nes.Proofs.Cpu.Lengths
import Nes.Proofs.Cpu.Shifts
import Nes.Proofs.Cpu.Encodings
import Nes.Proofs.Numbers
import Nes.Proofs.Cpu.Chains
import Nes.Proofs.Cpu.Rotations
import Nes.Proofs.Cpu.Reporting
import Nes.Proofs.Run.Printing
import Nes.Proofs.Run.Failures
import Nes.Proofs.Run.Outcome
import Nes.Proofs.Cpu.Locating
import Nes.Proofs.Cpu.Branches
import Nes.Proofs.Cpu.Frames
import Nes.Proofs.Cpu.Loops
import Nes.Proofs.Cpu.Listening
import Nes.Proofs.Cartridge.Fields
import Nes.Proofs.Cpu.Lossless
import Nes.Proofs.Cpu.Columns
import Nes.Proofs.Cpu.Picture
import Nes.Proofs.Cpu.Flags
import Nes.Proofs.Text.Fields
import Nes.Proofs.Text.Numerals
import Nes.Proofs.Run.Grammar
