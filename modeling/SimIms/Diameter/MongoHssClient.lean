import SimIms.Common.Environment
import SimIms.Diameter.HssClient

/-!
# The HSS client over the subscriber repository

A multimedia authentication finds the subscriber by the pair of identities, advances its SQN
and builds a vector; a server assignment finds it by the pair again, puts the server down as
the one that serves it and answers with its public identities. The I-CSCF is told which server
that is, or the default one.
-/

namespace SimIms.Diameter

open Cxx Lib Sip Db

def kSqnStep : UInt64 := 32
def kSqnMask : UInt64 := 0x0000FFFFFFFFFFFF

/-- The username and the realm of a private identity. -/
def splitUsernameRealm (impi : Bytes) : Bytes × Bytes :=
  match find impi '@'.toUInt8 0 with
  | none => (impi, [])
  | some pos => (impi.take pos, impi.drop (pos + 1))

/-- `std::format("{:012x}")` of a number of at most 48 bits. -/
def hex48 (n : UInt64) : Bytes := hexDigits 12 n.toNat

def toHssSubscriberConfig (subscriber : SubscriberRecord) : HssSubscriberConfig :=
  let (username, realm) := splitUsernameRealm subscriber.identities.impi
  { imsi := if username = [] then subscriber.identities.impi else username
    realm := if subscriber.identities.realm = [] then realm else subscriber.identities.realm
    ki := subscriber.auth.ki
    operatorCodeType := subscriber.auth.operatorCodeType
    opc := subscriber.auth.opc
    op := subscriber.auth.op
    sqn := hex48 (subscriber.auth.sqn &&& kSqnMask)
    amf := if subscriber.auth.amf = [] then bytes "8000" else subscriber.auth.amf }

def userNotFound (message : String) (impi impu : Bytes) : ErrorInfo :=
  { code := .diameterUserNotFound, message := bytes message
    detail := bytes "IMPI=" ++ impi ++ bytes " IMPU=" ++ impu }

namespace MongoHssClient

variable [OsipParser] {G : Interface} [Includes repository G]

/-- The subscriber for a request, or the error it is answered with. -/
def findSubscriber (message : String) (impi impu : Bytes) : Program G Exception
    (Result SubscriberRecord) :=
  (MongoSubscriberRepository.findByImpiOrImpu impi (normalizeImpuUri impu)).andThen fun
    | none => .pure (.error (userNotFound message impi impu))
    | some subscriber => .pure (.ok subscriber)

def multimediaAuth [Milenage] [Includes environment G] (params : MarParams) :
    Program G Exception (Result MaaResult) :=
  (findSubscriber "Subscriber not found for MAR" params.impi params.impu).andThen fun subscriber =>
    (MongoSubscriberRepository.advanceSqn subscriber.identities.impi kSqnStep kSqnMask).andThen
      fun oldSqn =>
        let withOldSqn := { subscriber with auth := { subscriber.auth with sqn := oldSqn } }
        match akaMaterial (toHssSubscriberConfig withOldSqn) with
        | .error error => .pure (.error error)
        | .ok material => do
            let rand ← randomBytes
            return (akaVector material rand).map fun authVector =>
              { sipAuthScheme := params.sipAuthScheme, authVector, subscriber }

def serverAssignment (params : SarParams) : Program G Exception (Result UserProfile) :=
  (findSubscriber "Subscriber not found for SAR" params.impi params.impu).andThen fun subscriber =>
    (MongoSubscriberRepository.setServingScscf subscriber.identities.impi
      params.serverName).andThen fun _ =>
        .pure (.ok { impu := subscriber.identities.canonicalImpu
                     associatedImpus := subscriber.identities.associatedImpus })

/-- The server that serves the subscriber, or the default one. -/
def resolveAssignedScscf (defaultScscfUri : Bytes) (subscriber : SubscriberRecord) : Bytes :=
  if subscriber.assignedScscf = [] then defaultScscfUri else subscriber.assignedScscf

def userAuthorization (defaultScscfUri impi impu : Bytes) : Program G Exception (Result Bytes) :=
  (findSubscriber "Subscriber not found for UAR" impi impu).andThen fun subscriber =>
    .pure (.ok (resolveAssignedScscf defaultScscfUri subscriber))

def locationInfo (defaultScscfUri impu : Bytes) : Program G Exception (Result Bytes) :=
  (MongoSubscriberRepository.findByIdentity (normalizeImpuUri impu)).andThen fun
    | none =>
        .pure (.error { code := .diameterUserNotFound
                        message := bytes "Subscriber not found for LIR", detail := impu })
    | some subscriber => .pure (.ok (resolveAssignedScscf defaultScscfUri subscriber))

def client [Milenage] [Includes environment G] : HssClient G := ⟨multimediaAuth, serverAssignment⟩

end MongoHssClient
end SimIms.Diameter
