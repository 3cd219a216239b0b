import Saacp.SessionHistory
import Saacp.Receiver
import Saacp.RotationRaces
import Saacp.StreamAccounting
import Saacp.ClusterLease
import Saacp.AuditTamper
import Saacp.AuditMemory
import Saacp.FrameSwaps
import Saacp.FramingReplay
import Saacp.AuditRotation
import Saacp.IssuerBinding
import Saacp.Narrowing
import Saacp.RateLimiter
import Saacp.RrbcRuns
import Saacp.BackendRefinement
import Saacp.StreamLimits
import Saacp.IdentityProver
import Saacp.Threshold
import Saacp.TransparencyTamper
import Saacp.KeyRaces
import Saacp.PathCounts
import Saacp.Governor
import Saacp.Gossip
import Saacp.TrustRecovery
import Saacp.FederatedRuns
import Saacp.ClusterWire
import Saacp.CircuitBreaker
import Saacp.CryptoLedger
import Saacp.Negotiation
import Saacp.Scanner
