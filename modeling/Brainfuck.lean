import Brainfuck.Session
import Brainfuck.Settings.File
import Brainfuck.Proofs.Sequences
import Brainfuck.Proofs.Brackets
import Brainfuck.Proofs.Grammar
import Brainfuck.Proofs.Steps
import Brainfuck.Proofs.Sessions
import Brainfuck.Proofs.LoopStack
import Brainfuck.Proofs.Safety
import Brainfuck.Proofs.Programs
import Brainfuck.Proofs.Refinement
import Brainfuck.Proofs.Comments
import Brainfuck.Proofs.Streams
import Brainfuck.Proofs.Turns
import Brainfuck.Proofs.Limits
import Brainfuck.Proofs.Padding
import Brainfuck.Proofs.Loading
import Brainfuck.Proofs.Traces
import Brainfuck.Proofs.Ledger
import Brainfuck.Proofs.Translation
import Brainfuck.Proofs.Faults
import Brainfuck.Proofs.Endings
import Brainfuck.Proofs.Excursions
import Brainfuck.Proofs.Unmatched
import Brainfuck.Proofs.Jumps
import Brainfuck.Proofs.CountingLoops
import Brainfuck.Proofs.LoopBounds
import Brainfuck.Proofs.Locality
import Brainfuck.Proofs.LowBytes
import Brainfuck.Proofs.Memory
import Brainfuck.Proofs.Queues
import Brainfuck.Proofs.Dictionaries
import Brainfuck.Proofs.Verdicts
import Brainfuck.Proofs.Sections
import Brainfuck.Proofs.Integers
import Brainfuck.Proofs.Variables
import Brainfuck.Proofs.Columns
import Brainfuck.Proofs.Marks
