import SecureGateway.Resilience.BreakerRuns
import SecureGateway.RateLimit.Bound
import SecureGateway.RateLimit.ClockOrder
import SecureGateway.Login.Lockout
import SecureGateway.Foundation.Pool
import SecureGateway.Gateway.Raised
import SecureGateway.Resilience.Executor
import SecureGateway.Resilience.Calls
import SecureGateway.Resilience.CallProtocol
import SecureGateway.Resilience.Settlement
import SecureGateway.Resilience.OpenCircuit
import SecureGateway.Audit.Events
import SecureGateway.Authorization.Names
import SecureGateway.Database.Schema
import SecureGateway.Audit.Recording
import SecureGateway.Database.Repositories
import SecureGateway.Login.Protection
import SecureGateway.RateLimit.Limiter
import SecureGateway.Auth.Service
import SecureGateway.Auth.Router
import SecureGateway.Authorization.Router
import SecureGateway.Proxy.Headers
import SecureGateway.Proxy.Router
import SecureGateway.Gateway.System
import SecureGateway.Gateway.Discipline
import SecureGateway.Gateway.RouteDiscipline
import SecureGateway.Gateway.Effects
import SecureGateway.Gateway.LoginRace
import SecureGateway.Gateway.Privilege
import SecureGateway.Resilience.RetryAfter
import SecureGateway.Resilience.RetrySafety
import SecureGateway.Foundation.Erasure
import SecureGateway.Resilience.Events
import SecureGateway.Gateway.Permissions
import SecureGateway.Foundation.SetUpdates
import SecureGateway.Gateway.RoleUpdates
import SecureGateway.Gateway.UserCreation
import SecureGateway.Foundation.Simulation
import SecureGateway.Auth.InMemory
import SecureGateway.Gateway.Interchange
import SecureGateway.Gateway.AuditedRejection
import SecureGateway.Auth.Settings
import SecureGateway.Auth.Tokens
import SecureGateway.Gateway.TokenRoundTrip
import SecureGateway.Foundation.Lockstep
import SecureGateway.Gateway.LoginPrivacy
import SecureGateway.Foundation.Reservoir
import SecureGateway.RateLimit.Figures
import SecureGateway.RateLimit.KeyExpiry
import SecureGateway.Login.Observation
import SecureGateway.Proxy.Forwarding
import SecureGateway.Proxy.RequestHeaders
import SecureGateway.Proxy.ResponseHeaders
import SecureGateway.Proxy.Repetition
import SecureGateway.Python.Url
import SecureGateway.Proxy.Registry
import SecureGateway.Proxy.Target
import SecureGateway.Gateway.RoleRoutes
import SecureGateway.Gateway.RedisKeys
import SecureGateway.RateLimit.PolicyDeadline
import SecureGateway.Python.Userinfo
import SecureGateway.Settings.Database
import SecureGateway.Settings.Redis
import SecureGateway.Settings.Redaction
import SecureGateway.Foundation.Binary64
import SecureGateway.Python.Numbers
import SecureGateway.RateLimit.Delays
import SecureGateway.RateLimit.Replies
import SecureGateway.Observability.Metrics
import SecureGateway.Observability.Middleware
import SecureGateway.Observability.Cardinality
import SecureGateway.Foundation.Backtracking
import SecureGateway.Python.Lines
import SecureGateway.Python.Numerals
import SecureGateway.Tools.MetricsDelta
import SecureGateway.Tools.Exposition
import SecureGateway.Tools.Scrapes
import SecureGateway.RateLimit.Admission
import SecureGateway.Foundation.Noninterference
import SecureGateway.Resilience.Isolation
import SecureGateway.Foundation.Spacing
import SecureGateway.Login.Guesses
import SecureGateway.Foundation.JsonText
import SecureGateway.Python.Datetime
import SecureGateway.Observability.LogLines
import SecureGateway.Foundation.Scopes
import SecureGateway.Gateway.Lifespan
import SecureGateway.Observability.RequestTally
import SecureGateway.Foundation.Traces
import SecureGateway.Gateway.AuditMarks
import SecureGateway.Gateway.Unmarked
import SecureGateway.Gateway.AuditTrail
import SecureGateway.Gateway.Credentials
import SecureGateway.Gateway.Passwords
import SecureGateway.Gateway.Provenance
import SecureGateway.RateLimit.ServerClock
import SecureGateway.Gateway.Limits
import SecureGateway.Gateway.Traffic
