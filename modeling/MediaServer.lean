import MediaServer.Proofs.Alone
import MediaServer.Proofs.Exchanges
import MediaServer.Proofs.Forwarding
import MediaServer.Proofs.Isolation
import MediaServer.Proofs.Locks
import MediaServer.Proofs.Logins
import MediaServer.Proofs.Origin
import MediaServer.Proofs.Registration
import MediaServer.Proofs.Releases
import MediaServer.Proofs.RoomStore
import MediaServer.Proofs.Announcements
import MediaServer.Proofs.Leaving
import MediaServer.Proofs.Keepalive
import MediaServer.Proofs.Strangers
import MediaServer.Proofs.Answers
import MediaServer.Proofs.Unpush
import MediaServer.Proofs.Ghosts
import MediaServer.Proofs.Stale
import MediaServer.Proofs.KeyframeRate
import MediaServer.Proofs.KeyframeUse
import MediaServer.Proofs.Retries
import MediaServer.Proofs.Latecomers
import MediaServer.Proofs.Negotiation
import MediaServer.Proofs.Startup
import MediaServer.Proofs.Replication
import MediaServer.Proofs.Ssrc
import MediaServer.Proofs.KeyframeTimers
import MediaServer.Proofs.Subscribers
import MediaServer.Proofs.Orphans
import MediaServer.Proofs.Ownership
import MediaServer.Proofs.Interference
import MediaServer.Proofs.Candidates
import MediaServer.Proofs.CandidateOrder
import MediaServer.Proofs.KeyframeDelay
import MediaServer.Proofs.Malformed
import MediaServer.Proofs.Farewell
import MediaServer.Proofs.Reconnect
import MediaServer.Proofs.Registrations
import MediaServer.Proofs.IceDelivery
import MediaServer.Proofs.Neighbours
import MediaServer.Proofs.Cascade
import MediaServer.Proofs.Deadlock
import MediaServer.Proofs.Silence
import MediaServer.Proofs.Refusals
import MediaServer.Proofs.Ledger
import MediaServer.Proofs.Media
import MediaServer.Proofs.Guests
import MediaServer.Proofs.Crashes
