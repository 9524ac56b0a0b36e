import HalfMatrix.Proofs.Session.Tickets
import HalfMatrix.Proofs.Session.Isolation
import HalfMatrix.Proofs.Session.Commutation
import HalfMatrix.Proofs.SingleWrites
import HalfMatrix.Proofs.Readings
import HalfMatrix.Proofs.Counterparts
import HalfMatrix.Proofs.Session.Refusals
import HalfMatrix.Proofs.Session.Lockstep
import HalfMatrix.Proofs.Flat.Basic
import HalfMatrix.Proofs.Flat.Entries
import HalfMatrix.Proofs.Flat.Lending
import HalfMatrix.Proofs.Session.Safety
import HalfMatrix.Proofs.Session.Printing
import HalfMatrix.Proofs.Decimals.ReadBack
import HalfMatrix.Proofs.Decimals.Spellings
import HalfMatrix.Proofs.Decimals.Finiteness
import HalfMatrix.Proofs.Documents.Scanning
import HalfMatrix.Proofs.Documents.Records
import HalfMatrix.Proofs.Documents.Tables
import HalfMatrix.Proofs.Documents.Files
import HalfMatrix.Proofs.Documents.Accepted
import HalfMatrix.Proofs.Session.Archive
import HalfMatrix.Proofs.Session.Loading
import HalfMatrix.Proofs.Releases
import HalfMatrix.Proofs.Outlets
import HalfMatrix.Proofs.Session.Printouts
import HalfMatrix.Proofs.Session.Routing
import HalfMatrix.Proofs.Session.Redirections
import HalfMatrix.Proofs.Session.Prefixes
import HalfMatrix.Proofs.Session.Presentations
import HalfMatrix.Proofs.Session.EntryUpdates
import HalfMatrix.Proofs.PackedOrder
import HalfMatrix.Proofs.Flat.MachineWords
import HalfMatrix.Proofs.DenseForms
import HalfMatrix.Proofs.Session.Relayouts
import HalfMatrix.Proofs.Conflicts
import HalfMatrix.Proofs.Session.Admissions
import HalfMatrix.Proofs.Blocks
import HalfMatrix.Proofs.Decimals.Equality
import HalfMatrix.Proofs.Session.Comparisons
import HalfMatrix.Proofs.Decimals.Shown
import HalfMatrix.Proofs.Session.Displays
import HalfMatrix.Proofs.Documents.Settings
