import SharedPair.Extension
import SharedPair.Machine
import SharedPair.Script.Step
import SharedPair.Session.Step
import SharedPair.Proofs.Extension
import SharedPair.Proofs.Machine
import SharedPair.Proofs.Heap.Inventory
import SharedPair.Proofs.Heap.Counting
import SharedPair.Proofs.Heap.Turnover
import SharedPair.Proofs.Heap.Spare
import SharedPair.Proofs.Copy.Linear
import SharedPair.Proofs.Copy.Outcome
import SharedPair.Proofs.Script.Founding
import SharedPair.Proofs.Script.Books
import SharedPair.Proofs.Script.Ownership
import SharedPair.Proofs.Copy.Attempts
import SharedPair.Proofs.Script.Ways
import SharedPair.Proofs.Script.Births
import SharedPair.Proofs.Script.Faults
import SharedPair.Proofs.Script.Serials
import SharedPair.Proofs.Object.Books
import SharedPair.Proofs.Object.Items
import SharedPair.Proofs.Object.Creation
import SharedPair.Proofs.Session.Books
import SharedPair.Proofs.Session.Calls
import SharedPair.Proofs.Session.References
import SharedPair.Proofs.Heap.Survival
import SharedPair.Proofs.Object.Renaming
import SharedPair.Proofs.Object.Mirror
import SharedPair.Proofs.Object.Mirroring
import SharedPair.Proofs.Object.Exchange
import SharedPair.Proofs.Object.Likeness
import SharedPair.Proofs.Call.Replacement
import SharedPair.Proofs.Session.Mirror
import SharedPair.Proofs.Session.Comparison
import SharedPair.Proofs.Session.Rejection
import SharedPair.Proofs.Object.Showing
import SharedPair.Proofs.Session.Pairs
import SharedPair.Proofs.Session.Borrowing
import SharedPair.Proofs.Script.Conservation
import SharedPair.Proofs.Script.Logging
import SharedPair.Proofs.Session.Logging
import SharedPair.Proofs.Logging
import SharedPair.Proofs.Heap.Cycles
import SharedPair.Proofs.Session.Leaks
import SharedPair.Proofs.Session.Spelling
import SharedPair.Proofs.Call.Verdict
import SharedPair.Proofs.Session.Verdicts
import SharedPair.Proofs.Session.Taking
import SharedPair.Proofs.Session.Packing
import SharedPair.Proofs.Leaks
import SharedPair.Proofs.Copy.Numbering
import SharedPair.Proofs.Copy.Likeness
import SharedPair.Proofs.Script.Copies
import SharedPair.Proofs.Script.Panics
import SharedPair.Proofs.Script.Packing
import SharedPair.Proofs.Script.Undoing
import SharedPair.Proofs.Script.Clones
import SharedPair.Proofs.Copy.Unwinding
import SharedPair.Proofs.Script.Unwinding
import SharedPair.Proofs.Heap.Images
import SharedPair.Proofs.Translation.Correspondence
import SharedPair.Proofs.Translation.Echoes
import SharedPair.Proofs.Translation.Refinement
import SharedPair.Proofs.Object.Pasting
import SharedPair.Proofs.Session.Reordering
import SharedPair.Proofs.Session.Clearing
import SharedPair.Proofs.Session.Matching
import SharedPair.Proofs.Session.Commuting
import SharedPair.Proofs.Call.Printing
import SharedPair.Proofs.Session.Printing
import SharedPair.Proofs.Heap.Cascade
import SharedPair.Proofs.Cascades
