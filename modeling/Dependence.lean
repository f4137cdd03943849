import Dependence.Session
import Dependence.Proofs.Arena.Adjacency
import Dependence.Proofs.Arena.Reload
import Dependence.Proofs.Arena.Building
import Dependence.Proofs.Arena.NormalForm
import Dependence.Proofs.Slots.Trimmed
import Dependence.Proofs.Slots.Vacancies
import Dependence.Proofs.Store.Journal
import Dependence.Proofs.Store.Milestone
import Dependence.Proofs.Store.Operation
import Dependence.Proofs.Store.Parameters
import Dependence.Proofs.Store.Reordering
import Dependence.Proofs.Store.Replay
import Dependence.Proofs.Session.Framing
import Dependence.Proofs.Session.Handles
import Dependence.Proofs.Session.Renaming
import Dependence.Proofs.Session.Reuse
import Dependence.Proofs.Session.Sharing
import Dependence.Proofs.Persistence.Agreement
import Dependence.Proofs.Persistence.Delimited
import Dependence.Proofs.Persistence.Lossless
import Dependence.Proofs.Persistence.Shapes
import Dependence.Proofs.Display
import Dependence.Proofs.Snapshot.Pictures
