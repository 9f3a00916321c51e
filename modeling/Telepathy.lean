import Telepathy.Answer
import Telepathy.Bus.Encoding
import Telepathy.Channel.Scripted
import Telepathy.Config.Layers
import Telepathy.Connection.Encoding
import Telepathy.Connection.Operation
import Telepathy.ContactList.Encoding
import Telepathy.Group.Basic
import Telepathy.Group.Sets
import Telepathy.Handle.Address
import Telepathy.Handle.Encoding
import Telepathy.Json.Reader
import Telepathy.Json.Writer
import Telepathy.Proofs.Connection.Announcements
import Telepathy.Proofs.Connection.Farewell
import Telepathy.Proofs.Connection.FirstTaker
import Telepathy.Proofs.Connection.Following
import Telepathy.Proofs.Connection.InterestCounts
import Telepathy.Proofs.Connection.Legacy
import Telepathy.Proofs.Connection.LocalUser
import Telepathy.Proofs.Connection.Names
import Telepathy.Proofs.Connection.OneOwner
import Telepathy.Proofs.Connection.Ownership
import Telepathy.Proofs.Connection.Registering
import Telepathy.Proofs.Connection.Registration
import Telepathy.Proofs.Connection.Regrouping
import Telepathy.Proofs.Connection.Resubmission
import Telepathy.Proofs.Connection.RosterQueue
import Telepathy.Proofs.Connection.Watches
import Telepathy.Proofs.Connection.WellFormed
import Telepathy.Proofs.ContactList.Renaming
import Telepathy.Proofs.ContactList.Rereading
import Telepathy.Proofs.Group.Owners
import Telepathy.Proofs.Group.References
import Telepathy.Proofs.Group.Refinement
import Telepathy.Proofs.Group.Silence
import Telepathy.Proofs.Handle.Safety
