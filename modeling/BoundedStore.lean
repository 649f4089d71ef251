import BoundedStore.Files.Tree
import BoundedStore.Main
import BoundedStore.Copy
import BoundedStore.Session.Step
import BoundedStore.Proofs.Checksum.Encoding
import BoundedStore.Proofs.Store.Outcome
import BoundedStore.Proofs.Store.Listing
import BoundedStore.Proofs.Table.Total
import BoundedStore.Proofs.WholeFile.Put
import BoundedStore.Proofs.Session.Event
import BoundedStore.Proofs.Space.Held
import BoundedStore.Proofs.Space.Flow
import BoundedStore.Proofs.Space.Balance
import BoundedStore.Proofs.Space.Capacity
import BoundedStore.Proofs.Space.History
import BoundedStore.Proofs.WholeFile.Preserve
import BoundedStore.Proofs.Store.Refusal
import BoundedStore.Proofs.Writing.Draft
import BoundedStore.Proofs.Writing.Published
import BoundedStore.Proofs.Writing.Origin
import BoundedStore.Proofs.Staging.Inputs
import BoundedStore.Proofs.Table.Entries
import BoundedStore.Proofs.Staging.Verified
import BoundedStore.Proofs.Staging.Outcome
import BoundedStore.Proofs.Staging.Account
import BoundedStore.Proofs.Session.Copies
import BoundedStore.Proofs.Session.Frame
import BoundedStore.Proofs.Writing.Reservation
import BoundedStore.Proofs.Reading.Cursor
import BoundedStore.Proofs.Reading.Copying
import BoundedStore.Proofs.Reading.Stable
import BoundedStore.Proofs.Session.Closed
import BoundedStore.Proofs.Space.Reservations
import BoundedStore.Proofs.WholeFile.Order
import BoundedStore.Proofs.Session.Spelling
import BoundedStore.Proofs.Space.Admission
import BoundedStore.Proofs.Checksum.Verification
import BoundedStore.Proofs.Checksum.Burst
import BoundedStore.Proofs.Path.Text
import BoundedStore.Proofs.Session.Queries
import BoundedStore.Proofs.Path.Scheme
import BoundedStore.Proofs.Path.Walk
import BoundedStore.Proofs.Path.Canonical
import BoundedStore.Proofs.Path.Absolute
import BoundedStore.Proofs.Path.Recognition
import BoundedStore.Proofs.Path.Distinct
import BoundedStore.Proofs.Path.Address
import BoundedStore.Proofs.WholeFile.Withdraw
import BoundedStore.Proofs.WholeFile.Move
import BoundedStore.Proofs.Buffer.LastWrite
import BoundedStore.Proofs.Checksum.Sizing
import BoundedStore.Proofs.Config.Validation
import BoundedStore.Proofs.Reading.Seeking
