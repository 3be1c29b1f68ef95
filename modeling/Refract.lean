import Refract.Codec.Chat.Ending
import Refract.Codec.Gemini.Delivery
import Refract.Codec.Messages.Transcode
import Refract.Codec.Wire
import Refract.Gateway.Response
import Refract.Store.Wallet
import Refract.Gateway.Billing
import Refract.Codec.Usage
import Refract.Gateway.Settlement
import Refract.Stream.Sse
import Refract.Gateway.Truncation
import Refract.Codec.Reading
import Refract.Gateway.Principal
import Refract.Router.Calls
import Refract.Router.Failover
import Refract.Codec.Gemini.Agreement
import Refract.Store.Breaker
import Refract.Router.Events
import Refract.Router.Planner
import Refract.Router.Bounds
import Refract.Gateway.Binding
import Refract.Store.Channels
import Refract.Gateway.Deletion
import Refract.Gateway.Balance
import Refract.Gateway.Revocation
import Refract.Machine.Interleaving
import Refract.Store.Marks
import Refract.Gateway.Notify
import Refract.Gateway.Rate
import Refract.Gateway.Guard
import Refract.Store.Verification
import Refract.Router.Diagnosis
import Refract.Gateway.Isolation
import Refract.Store.Sealing
import Refract.Gateway.Replay
import Refract.Gateway.Backup
import Refract.Store.Assembly
import Refract.Gateway.Recovery
import Refract.Gateway.Users
import Refract.Gateway.Ticket
import Refract.Gateway.Token
import Refract.Codec.Chat.Reassembly
import Refract.Gateway.Frames
import Refract.Upstream.Admission
import Refract.Codec.Chat.Request
import Refract.Codec.Messages.Request
import Refract.Codec.Responses.Request
import Refract.Codec.Gemini.Request
import Refract.Codec.Extensions
import Refract.Codec.Thinking
import Refract.Router.StreamUsage
import Refract.Codec.StreamInputs
import Refract.Codec.Dialogue
import Refract.Stream.Arrival
import Refract.Codec.Responses.Stop
import Refract.Codec.Chat.Answer
import Refract.Codec.Echo
import Refract.Codec.Identity
import Refract.Router.Overrides
import Refract.Gateway.Multipart
import Refract.Gateway.Framing
import Refract.Gateway.Restore
import Refract.Codec.Gemini.RoundTrip
import Refract.Router.Preference
import Refract.Router.Fairness
import Refract.Router.Spread
import Refract.Router.Stickiness
import Refract.Router.Capacity
import Refract.Codec.Limits
import Refract.Store.Suspension
import Refract.Ir.Effort
import Refract.Codec.Responses.Agreement
import Refract.Gateway.UserUpdate
import Refract.Gateway.Limits
import Refract.Gateway.Headers
import Refract.Router.CacheKey
import Refract.Stream.Ending
import Refract.Gateway.Saving
import Refract.Gateway.Metrics
import Refract.Gateway.Realtime
import Refract.Gateway.Fault
import Refract.Gateway.Books
import Refract.Gateway.Me
import Refract.Gateway.Models
import Refract.Gateway.Rotation
import Refract.Gateway.SelfService
import Refract.Gateway.GeminiPath
import Refract.Codec.Messages.Agreement
import Refract.Router.Passage
