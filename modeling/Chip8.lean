import Chip8.Main
import Chip8.Proofs.Agreement
import Chip8.Proofs.Command.Reading
import Chip8.Proofs.InstructionSet
import Chip8.Proofs.Listing.Concatenation
import Chip8.Proofs.Listing.Cursor
import Chip8.Proofs.Listing.Equality
import Chip8.Proofs.Listing.Instructions
import Chip8.Proofs.Listing.Layout
import Chip8.Proofs.Listing.Reencoding
import Chip8.Proofs.Listing.Relocation
import Chip8.Proofs.Listing.Reports
import Chip8.Proofs.Listing.Uniqueness
import Chip8.Proofs.Machine.Handovers
import Chip8.Proofs.Machine.Layers
import Chip8.Proofs.Machine.Reports
import Chip8.Proofs.Rejection
