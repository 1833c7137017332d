import ConnectionPool.Failure.Draft
import ConnectionPool.Session.Run
import ConnectionPool.Proofs.Holdings
import ConnectionPool.Proofs.Recency
import ConnectionPool.Proofs.Slots
import ConnectionPool.Proofs.Requests
import ConnectionPool.Proofs.Moves
import ConnectionPool.Proofs.Frames
import ConnectionPool.Proofs.Admission
import ConnectionPool.Proofs.Dispatch
import ConnectionPool.Proofs.Handing
import ConnectionPool.Proofs.Order
import ConnectionPool.Proofs.Return
import ConnectionPool.Proofs.Lease
import ConnectionPool.Proofs.Bounds
import ConnectionPool.Proofs.Upkeep
import ConnectionPool.Proofs.Adjust
import ConnectionPool.Proofs.Tenancy
import ConnectionPool.Proofs.Life
import ConnectionPool.Proofs.Course
import ConnectionPool.Proofs.Arrival
import ConnectionPool.Proofs.History
import ConnectionPool.Proofs.Precedence
import ConnectionPool.Proofs.Outcome
import ConnectionPool.Proofs.Liveness
import ConnectionPool.Proofs.Flow
import ConnectionPool.Proofs.Custody
import ConnectionPool.Proofs.Capacity
import ConnectionPool.Proofs.Service
import ConnectionPool.Proofs.Overfill
import ConnectionPool.Proofs.Agreement
import ConnectionPool.Proofs.Shutdown
import ConnectionPool.Proofs.Restoring
import ConnectionPool.Proofs.Age
import ConnectionPool.Proofs.Deadline
import ConnectionPool.Proofs.Likeness
import ConnectionPool.Proofs.Absence
import ConnectionPool.Proofs.Counterpart
import ConnectionPool.Proofs.Housekeeping
import ConnectionPool.Proofs.Unseen
import ConnectionPool.Proofs.Provision
import ConnectionPool.Proofs.Exhaustion
import ConnectionPool.Proofs.Slack
import ConnectionPool.Proofs.Handover
import ConnectionPool.Proofs.Origin
import ConnectionPool.Proofs.Lifetime
import ConnectionPool.Proofs.Retirement
import ConnectionPool.Proofs.Lowering
import ConnectionPool.Proofs.Surrender
import ConnectionPool.Proofs.Undoing
import ConnectionPool.Proofs.Causes
import ConnectionPool.Proofs.Belonging
import ConnectionPool.Proofs.Reordering
import ConnectionPool.Proofs.Termination
import ConnectionPool.Proofs.Conf
