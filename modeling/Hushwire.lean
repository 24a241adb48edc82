import Hushwire.Basic
import Hushwire.Library.Duplex
import Hushwire.Primitives.Kdf
import Hushwire.Primitives.Padding
import Hushwire.Braid.Auth
import Hushwire.Braid.Erasure
import Hushwire.Braid.Kem
import Hushwire.Braid.StateMachine
import Hushwire.Braid.Exchange
import Hushwire.Braid.Tags
import Hushwire.Braid.Transitions
import Hushwire.Braid.Views
import Hushwire.Braid.Agreement
import Hushwire.Braid.Network
import Hushwire.Braid.Invariant
import Hushwire.Library.Cycle
import Hushwire.Braid.Liveness
import Hushwire.Braid.Injection
import Hushwire.Braid.Ideal
import Hushwire.Library.KeyChain
import Hushwire.Ratchet.Spqr
import Hushwire.Ratchet.SpqrInvariant
import Hushwire.Braid.Redelivery
import Hushwire.Ratchet.SpqrPairing
import Hushwire.Primitives.Aead
import Hushwire.Ratchet.Session
import Hushwire.Ratchet.SessionSteps
import Hushwire.Ratchet.Ideal
import Hushwire.Ratchet.SessionNetwork
import Hushwire.Ratchet.ReceivingChain
import Hushwire.Ratchet.SpqrEpochs
import Hushwire.Group.SenderKey
import Hushwire.Group.Delivery
import Hushwire.Library.Climb
import Hushwire.Sesame.DeviceRecord
import Hushwire.Sesame.Convergence
import Hushwire.Handshake.Pqxdh
import Hushwire.Handshake.FirstContact
import Hushwire.Primitives.Serialization
import Hushwire.Ratchet.Storage
import Hushwire.SealedSender.Certificate
import Hushwire.SealedSender.Envelope
import Hushwire.Ratchet.Books
import Hushwire.Ratchet.Turns
import Hushwire.Ratchet.SessionTraffic
import Hushwire.Ratchet.EndToEnd
import Hushwire.Ratchet.EcView
import Hushwire.Group.Replay
import Hushwire.Group.Authentication
import Hushwire.Sesame.Retention
import Hushwire.Braid.Stream
import Hushwire.Ratchet.SpqrStore
import Hushwire.Ratchet.FailedSend
import Hushwire.Ratchet.SkipLimits
import Hushwire.Sesame.Conservation
import Hushwire.SealedSender.Issuance
import Hushwire.Group.Overflow
import Hushwire.Library.Secrecy
import Hushwire.Primitives.Symbolic
import Hushwire.Ratchet.Holdings
import Hushwire.Ratchet.ForwardSecrecy
import Hushwire.Ratchet.PqForwardSecrecy
import Hushwire.Ratchet.Healing
import Hushwire.Ratchet.Authenticity
import Hushwire.Group.Secrecy
import Hushwire.Group.Agreement
import Hushwire.Handshake.PrekeySession
import Hushwire.Handshake.Secrecy
import Hushwire.Ratchet.EcMoves
import Hushwire.Ratchet.History
import Hushwire.SealedSender.Forgery
