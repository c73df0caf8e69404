import Nbd.FlagSet.Edit
import Nbd.Message.Fields
import Nbd.Proofs.Routing
import Nbd.Proofs.Words
import Nbd.Session
import Nbd.Proofs.Layout
import Nbd.Proofs.RoundTrip
import Nbd.Proofs.Stream.Fill
import Nbd.Proofs.Stream.Drain
import Nbd.Proofs.Stream.Mode
import Nbd.Proofs.Session.Torn
import Nbd.Proofs.Session.Framing
import Nbd.Proofs.Session.Refinement
import Nbd.Proofs.Session.Ledger
import Nbd.Proofs.Session.Matching
import Nbd.Proofs.Stream.Fieldwise
import Nbd.Proofs.Windows
import Nbd.Proofs.Drafts
import Nbd.Proofs.NormalForm
import Nbd.Proofs.Session.Transcript
import Nbd.Proofs.Session.Interleaving
import Nbd.Proofs.Session.Routes
import Nbd.Proofs.Acceptance
import Nbd.Proofs.Contents
import Nbd.Proofs.Editing
import Nbd.Proofs.Stream.Stopping
import Nbd.Proofs.Range
import Nbd.Proofs.Stream.Capacity
import Nbd.Proofs.Classification
import Nbd.Proofs.Sequences
import Nbd.Proofs.Views
import Nbd.Proofs.Ordering
import Nbd.Proofs.Stream.Loop
