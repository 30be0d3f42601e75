import Chip8.Main
import Chip8.Proofs.Text.Numeral
import Chip8.Proofs.CommandLine.Address
import Chip8.Proofs.Memory.Bytes
import Chip8.Proofs.Memory.Coherence
import Chip8.Proofs.Memory.History
import Chip8.Proofs.Memory.Decodes
import Chip8.Proofs.Memory.Agreement
import Chip8.Proofs.Screen.Picture
import Chip8.Proofs.Screen.Sprite
import Chip8.Proofs.Operation.Decode
import Chip8.Proofs.Operation.Classification
import Chip8.Proofs.Effect
import Chip8.Proofs.Effect.Performs
import Chip8.Proofs.Effect.Frame
import Chip8.Proofs.Effect.Blocks
import Chip8.Proofs.Effect.Draw
import Chip8.Proofs.Effect.Arithmetic
import Chip8.Proofs.Machine.Cycle
import Chip8.Proofs.Machine.Stages
import Chip8.Proofs.Machine.Reachable
import Chip8.Proofs.Machine.Locality
import Chip8.Proofs.Machine.Layout
import Chip8.Proofs.Machine.Randomness
import Chip8.Proofs.Machine.Carry
import Chip8.Proofs.Machine.Restart
import Chip8.Proofs.Machine.Failure
import Chip8.Proofs.Machine.Aftermath
import Chip8.Proofs.Machine.Footprint
import Chip8.Proofs.Machine.Calls
import Chip8.Proofs.Machine.Loading
import Chip8.Proofs.Machine.Addresses
import Chip8.Proofs.Machine.Alignment
import Chip8.Proofs.Machine.Drawing
import Chip8.Proofs.Machine.Redrawing
import Chip8.Proofs.Machine.Arithmetic
import Chip8.Proofs.Machine.Blocks
import Chip8.Proofs.Machine.Retry
import Chip8.Proofs.Machine.Timers
import Chip8.Proofs.Machine.Logging
import Chip8.Proofs.Session.Pacing
import Chip8.Proofs.Session.Limit
import Chip8.Proofs.Session.Output
