import SimIms.Lib.Machine
import SimIms.Lib.Loop
import SimIms.Lib.Outcome
import SimIms.Lib.OrderedMap
import SimIms.Lib.Demand
import SimIms.Lib.Table
import SimIms.Lib.Timer
import SimIms.Cxx.Text
import SimIms.Common.Types
import SimIms.Sip.Framing
import SimIms.Sip.Message
import SimIms.Sip.Transaction
import SimIms.Rtp.Bencode
import SimIms.Rtp.BencodeGrammar
import SimIms.Rtp.BencodeReading
import SimIms.Rtp.BencodeProgress
import SimIms.Rtp.BencodeRoundTrip
import SimIms.Rtp.BencodeAcceptance
import SimIms.Sip.TransactionLayer
import SimIms.Sip.ProceedingClient
import SimIms.Rtp.MediaSession
import SimIms.PCscf.EstablishedMedia
import SimIms.PCscf.MediaResurrection
import SimIms.SCscf.EstablishedDialogs
import SimIms.Sip.Forwarding
import SimIms.Sip.UpstreamAnswers
import SimIms.Sip.UriUtils
import SimIms.Db.SubscriberRepository
import SimIms.Registration.Store
import SimIms.Sip.Headers
import SimIms.Diameter.AkaVector
import SimIms.Diameter.MongoHssClient
import SimIms.SCscf.AuthManager
import SimIms.SCscf.ImsAkaAuthProvider
import SimIms.SCscf.Registrar
import SimIms.Registration.StoreContents
import SimIms.Registration.Batches
import SimIms.Registration.StoreCalls
import SimIms.Registration.UniqueContacts
import SimIms.Registration.Purging
import SimIms.Lib.Threads
import SimIms.Diameter.SqnAllocation
import SimIms.Lib.Ledger
import SimIms.SCscf.AkaCalls
import SimIms.SCscf.AkaCoordination
import SimIms.SCscf.Coalescing
import SimIms.SCscf.DigestAuthProvider
import SimIms.SCscf.DigestCalls
import SimIms.SCscf.OneTimeChallenges
import SimIms.SCscf.AnsweredChallenges
import SimIms.Registration.KeyedBindings
import SimIms.SCscf.RegistrarCalls
import SimIms.SCscf.RegistrarRuns
import SimIms.SCscf.ImplicitSets
import SimIms.SCscf.UnverifiedRequests
import SimIms.SCscf.RegisterPromises
import SimIms.Db.Identities
import SimIms.SCscf.AkaRegistrar
import SimIms.SCscf.VerifiedIdentities
import SimIms.SCscf.InDialogRouting
import SimIms.Sip.ProxyCore
import SimIms.Sip.ViaStack
import SimIms.Sip.ServerLayer
import SimIms.Sip.ServerRuns
import SimIms.Sip.OnceDispatched
import SimIms.Sip.AckHandling
import SimIms.Sip.ClientLayer
import SimIms.Sip.ResponseDelivery
import SimIms.ICscf.ScscfSelector
import SimIms.ICscf.RoutableSubscribers
import SimIms.Sip.SipStack
import SimIms.SCscf.RouterHandlers
import SimIms.SCscf.FailureAcks
import SimIms.Sip.HopLimit
import SimIms.PCscf.ResponsePath
import SimIms.SCscf.ProviderFallback
import SimIms.SCscf.Refreshes
import SimIms.Lib.Segments
import SimIms.Sip.Reassembly
import SimIms.WebUi.JsText
import SimIms.Db.SubscriberCodec
import SimIms.Db.WrittenSubscribers
import SimIms.Db.PublicIdentities
import SimIms.Db.ResolvedIdentities
import SimIms.SCscf.MongoDigestCredentialStore
import SimIms.Db.Aliases
import SimIms.SCscf.DigestAliases
import SimIms.Rtp.RtpengineClient
import SimIms.Rtp.ReceiverLoop
import SimIms.Rtp.RequestMatching
import SimIms.Sip.GenericHeaders
import SimIms.Sip.ResponseMatching
import SimIms.Sip.ServerLifecycle
import SimIms.Rtp.MediaIncarnations
import SimIms.Sip.ClientRegistry
import SimIms.Sip.LayerShutdown
import SimIms.Sip.Retransmissions
import SimIms.SCscf.CalleeLookup
import SimIms.SCscf.SpelledIdentities
import SimIms.SCscf.ContactQueries
import SimIms.PCscf.SparedMedia
import SimIms.PCscf.ReleasedMedia
import SimIms.Sip.CancelledInvites
import SimIms.SCscf.CanceledSessions
import SimIms.Registration.BatchOrder
import SimIms.Registration.StaleRequests
import SimIms.Diameter.AkaTokens
import SimIms.Rtp.FinalMarkings
import SimIms.SCscf.IssuedNonces
import SimIms.Sip.DigestPrinting
import SimIms.PCscf.TopologyRoutes
import SimIms.PCscf.WrittenPorts
import SimIms.SCscf.UncaughtExceptions
import SimIms.Sip.NormalForms
import SimIms.SCscf.ContactAddresses
import SimIms.SCscf.HeaderLists
import SimIms.Lib.Fields
import SimIms.WebUi.Collections
import SimIms.WebUi.UeEndpoints
import SimIms.Lib.Numerals
import SimIms.WebUi.BatchImport
import SimIms.Lib.Backoff
import SimIms.Sip.PacedRetransmissions
import SimIms.Lib.ByteField
import SimIms.Lib.Rijndael
import SimIms.Crypt.Rijndael
import SimIms.Crypt.RijndaelCipher
import SimIms.Crypt.Milenage
import SimIms.Crypt.MilenageBlocks
import SimIms.Diameter.MilenageVectors
import SimIms.SCscf.AkaExchange
import SimIms.Sip.TcpTransport
import SimIms.Sip.TcpTasks
import SimIms.Sip.SharedConnections
import SimIms.Lib.Marks
import SimIms.Sip.ConnectionMarks
import SimIms.Sip.OpenConnections
import SimIms.Sip.StaleConnections
import SimIms.Sip.Exchange
import SimIms.Sip.AnsweredRequests
import SimIms.PCscf.Forwarders
import SimIms.PCscf.ReturnedCalls
import SimIms.Rtp.MediaCommands
import SimIms.Rtp.AnsweredCommands
