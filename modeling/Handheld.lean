import Handheld.Main
import Handheld.Processor.FlatMemory
import Handheld.Serial
import Handheld.Proofs.Console.Frame
import Handheld.Proofs.Picture.Schedule
import Handheld.Proofs.Processor.InterruptEnable
import Handheld.Proofs.Processor.RepeatedFetch
import Handheld.Proofs.Picture.Invariant
import Handheld.Proofs.Picture.Passage
import Handheld.Proofs.Processor.Outcome
import Handheld.Proofs.Console.FramePace
import Handheld.Proofs.Board.Ram
import Handheld.Proofs.Console.Chronicle
import Handheld.Proofs.Console.Dispatch
import Handheld.Proofs.Console.Units
import Handheld.Proofs.Board.Map
import Handheld.Proofs.Cartridge.Ram
import Handheld.Proofs.Board.Store
import Handheld.Proofs.Cartridge.History
import Handheld.Proofs.Cartridge.RomBanks
import Handheld.Proofs.Cartridge.RamCells
import Handheld.Proofs.Board.Clock
import Handheld.Proofs.Processor.Control
import Handheld.Proofs.Processor.OpcodeTable
import Handheld.Proofs.Processor.InstructionTime
import Handheld.Proofs.Board.Isolation
import Handheld.Proofs.Console.Calls
import Handheld.Proofs.Console.Lockup
import Handheld.Proofs.Console.Stop
import Handheld.Proofs.Console.Halt
import Handheld.Proofs.Console.PowerCycle
import Handheld.Proofs.Console.OneClock
import Handheld.Proofs.Console.Presses
import Handheld.Proofs.CommandLine.HoldSchedule
import Handheld.Proofs.Processor.FaultAddress
import Handheld.Proofs.Processor.Footprint
import Handheld.Proofs.Processor.RegisterFrame
import Handheld.Proofs.Picture.Completion
import Handheld.Proofs.Console.ShownFrame
import Handheld.Proofs.Checked.Arithmetic
import Handheld.Proofs.Checked.Processor
import Handheld.Proofs.Checked.Cartridge
import Handheld.Proofs.Checked.Line
import Handheld.Proofs.Checked.Raster
import Handheld.Proofs.Checked.Board
import Handheld.Proofs.Console.Bounds
import Handheld.Proofs.Board.TimerCount
import Handheld.Proofs.Processor.LongArithmetic
import Handheld.Proofs.Processor.DecimalArithmetic
import Handheld.Proofs.Picture.Pixel
import Handheld.Proofs.Picture.SpritePriority
import Handheld.Proofs.Processor.WideAddition
import Handheld.Proofs.Processor.LongShift
import Handheld.Proofs.Processor.OperandForms
import Handheld.Proofs.Processor.Stack
import Handheld.Proofs.Console.TimerEdges
import Handheld.Proofs.Picture.WindowLine
import Handheld.Proofs.Picture.StaticScene
import Handheld.Proofs.Board.StatusCount
import Handheld.Proofs.Picture.DisplayOff
import Handheld.Proofs.Board.BlockTransfer
import Handheld.Proofs.Board.ButtonHistory
import Handheld.Proofs.Cartridge.MotorBit
import Handheld.Proofs.Cartridge.Coverage
import Handheld.Proofs.Console.KeyBindings
import Handheld.Proofs.Processor.FlagNibble
import Handheld.Proofs.Console.InterruptChoice
import Handheld.Proofs.Board.SoundPower
import Handheld.Proofs.Cartridge.Checksum
import Handheld.Proofs.CommandLine.HoldGrammar
import Handheld.Proofs.CommandLine.RunFiles
import Handheld.Proofs.Board.RamNoise
import Handheld.Proofs.Picture.RgbImage
