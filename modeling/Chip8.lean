import Chip8.Config
import Chip8.Console
import Chip8.Console.Call
import Chip8.Console.Run
import Chip8.Fault
import Chip8.Instruction
import Chip8.Instruction.Assembly
import Chip8.Instruction.Encoding
import Chip8.Keypad
import Chip8.Log
import Chip8.Machine
import Chip8.Machine.Execute
import Chip8.Memory
import Chip8.Numeral
import Chip8.Opcode
import Chip8.Proofs.Access
import Chip8.Proofs.AllOrNothing
import Chip8.Proofs.Blit
import Chip8.Proofs.Carry
import Chip8.Proofs.Correspondence
import Chip8.Proofs.Dialects
import Chip8.Proofs.Disassembly
import Chip8.Proofs.DrawInstruction
import Chip8.Proofs.Drawing
import Chip8.Proofs.Encoding
import Chip8.Proofs.Entropy
import Chip8.Proofs.Events
import Chip8.Proofs.Execute
import Chip8.Proofs.Failure
import Chip8.Proofs.Footprint
import Chip8.Proofs.Frames
import Chip8.Proofs.GuardedMachine
import Chip8.Proofs.Guards
import Chip8.Proofs.History
import Chip8.Proofs.LastKeyEvent
import Chip8.Proofs.Lit
import Chip8.Proofs.Load
import Chip8.Proofs.Lockstep
import Chip8.Proofs.LogAccount
import Chip8.Proofs.MemoryAccess
import Chip8.Proofs.Nesting
import Chip8.Proofs.NoTrap
import Chip8.Proofs.RandomSteps
import Chip8.Proofs.Range
import Chip8.Proofs.Reachable
import Chip8.Proofs.Reads
import Chip8.Proofs.Redraw
import Chip8.Proofs.Rendering
import Chip8.Proofs.Reserved
import Chip8.Proofs.Reset
import Chip8.Proofs.Skipping
import Chip8.Proofs.Steering
import Chip8.Proofs.Step
import Chip8.Proofs.StepResult
import Chip8.Proofs.StraightLine
import Chip8.Proofs.Stuck
import Chip8.Proofs.Timers
import Chip8.Proofs.Transfers
import Chip8.Proofs.Truncation
import Chip8.Proofs.UnseenKeys
import Chip8.Proofs.UnseenTicks
import Chip8.Proofs.Waiting
import Chip8.Proofs.Wording
import Chip8.Random
import Chip8.Random.ChaCha
import Chip8.Registers
import Chip8.Screen
