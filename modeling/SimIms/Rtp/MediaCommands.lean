import SimIms.PCscf.SparedMedia
import SimIms.Rtp.BencodeRoundTrip
import SimIms.Rtp.RequestMatching

/-!
# The commands of the rtpengine client

The functions of the client build a command, send it and read the response. On the other side of a
network that may lose, double, delay and reorder datagrams is rtpengine, which answers a command
under its cookie. What a call takes out of a response has been said about its own command, whatever
other calls wait at the same time.
-/

namespace SimIms.Rtp

open Cxx Lib

/-! ## Commands and responses -/

/-- The flags that the client looks at. -/
structure RtpengineFlags where
  directionFrom : Bytes := []
  directionTo : Bytes := []
  iceRemove : Bool := false
  replace : Option Bytes := none
deriving DecidableEq, Repr

structure RtpengineResult where
  sdp : Bytes := []
  tag : Bytes := []
deriving DecidableEq, Repr

def listValue (items : List Bytes) : BencodeValue where
  tree := .list (items.map .string)
  ordered := by
    refine .list fun item hmem => ?_
    obtain ⟨s, -, rfl⟩ := List.mem_map.mp hmem
    exact .string s

def findStringField (dict : BencodeDict) (key : Bytes) : Result (Option Bytes) :=
  match dict.find key with
  | none => .ok none
  | some (.string value) => .ok (some value)
  | some _ =>
      .error { code := .mediaRtpengineError
               message := bytes "rtpengine response field '" ++ key ++
                 bytes "' has unexpected type" }

/-- What `offer` and `answer` put into their commands in the same way. -/
def sdpCommand (command : Bytes) (session : MediaSession) (sdp : Bytes) (flags : RtpengineFlags) :
    BencodeDict :=
  let cmd := (buildBaseCommand command session).set (bytes "sdp") (stringValue sdp)
  let cmd :=
    if flags.directionFrom = [] then cmd
    else cmd.set (bytes "direction") (listValue [flags.directionFrom, flags.directionTo])
  if flags.iceRemove then cmd.set (bytes "ICE") (stringValue (bytes "remove")) else cmd

def offerCommand (session : MediaSession) (sdp : Bytes) (flags : RtpengineFlags) : BencodeDict :=
  let cmd := sdpCommand (bytes "offer") session sdp flags
  match flags.replace with
  | none => cmd
  | some replace => cmd.set (bytes "replace") (listValue [replace])

def answerCommand (session : MediaSession) (sdp : Bytes) (flags : RtpengineFlags) : BencodeDict :=
  sdpCommand (bytes "answer") session sdp flags

def pingCommand : BencodeDict :=
  BencodeDict.empty.set (bytes "command") (stringValue (bytes "ping"))

def readOffer (dict : BencodeDict) : Result RtpengineResult := do
  if (← findStringField dict (bytes "result")) ≠ some (bytes "ok") then
    let reason ← findStringField dict (bytes "error-reason")
    .error { code := .mediaRtpengineError
             message := reason.getD (bytes "rtpengine offer failed") }
  else
    let sdp ← findStringField dict (bytes "sdp")
    let tag ← findStringField dict (bytes "tag")
    return { sdp := sdp.getD [], tag := tag.getD [] }

/-- Without the reason that rtpengine gives, and without its tag. -/
def readAnswer (dict : BencodeDict) : Result RtpengineResult := do
  if (← findStringField dict (bytes "result")) ≠ some (bytes "ok") then
    .error (mediaError "rtpengine answer failed")
  else
    let sdp ← findStringField dict (bytes "sdp")
    return { sdp := sdp.getD [] }

/-- Whatever rtpengine says. -/
def readDelete (_ : BencodeDict) : Result Unit := .ok ()

def readQuery (dict : BencodeDict) : Result Bytes := .ok (bencodeEncode dict.value)

def readPing (dict : BencodeDict) : Result Unit := do
  if (← findStringField dict (bytes "result")) = some (bytes "pong") then return ()
  else .error (mediaError "Unexpected ping response")

namespace RtpengineClient

/-- Send a command, and read the response if there is one. -/
def request {α : Type} (cmd : BencodeDict) (read : BencodeDict → Result α) :
    Program clientOps Exception (Result α) :=
  (sendCommand cmd).andThen fun dict => .pure (read dict)

def offer (session : MediaSession) (sdp : Bytes) (flags : RtpengineFlags) :
    Program clientOps Exception (Result RtpengineResult) :=
  request (offerCommand session sdp flags) readOffer

def answer (session : MediaSession) (sdp : Bytes) (flags : RtpengineFlags) :
    Program clientOps Exception (Result RtpengineResult) :=
  request (answerCommand session sdp flags) readAnswer

def deleteSession (session : MediaSession) : Program clientOps Exception (Result Unit) :=
  request (buildBaseCommand (bytes "delete") session) readDelete

def query (session : MediaSession) : Program clientOps Exception (Result Bytes) :=
  request (buildBaseCommand (bytes "query") session) readQuery

def ping : Program clientOps Exception (Result Unit) := request pingCommand readPing

end RtpengineClient

/-! ## Calls -/

/-- One of the functions of the client, with its arguments. -/
inductive MediaCall where
  | offer (session : MediaSession) (sdp : Bytes) (flags : RtpengineFlags)
  | answer (session : MediaSession) (sdp : Bytes) (flags : RtpengineFlags)
  | deleteSession (session : MediaSession)
  | query (session : MediaSession)
  | ping

inductive MediaAnswer where
  | media (result : RtpengineResult)
  | text (response : Bytes)
  | done
deriving DecidableEq, Repr

namespace MediaCall

def command : MediaCall → BencodeDict
  | offer session sdp flags => offerCommand session sdp flags
  | answer session sdp flags => answerCommand session sdp flags
  | deleteSession session => buildBaseCommand (bytes "delete") session
  | query session => buildBaseCommand (bytes "query") session
  | ping => pingCommand

def read : MediaCall → BencodeDict → Result MediaAnswer
  | offer _ _ _, dict => (readOffer dict).map .media
  | answer _ _ _, dict => (readAnswer dict).map .media
  | deleteSession _, dict => (readDelete dict).map fun _ => .done
  | query _, dict => (readQuery dict).map .text
  | ping, dict => (readPing dict).map fun _ => .done

/-- The results of all the functions as one type. -/
def run : MediaCall → Program clientOps Exception (Result MediaAnswer)
  | offer session sdp flags =>
      return (← RtpengineClient.offer session sdp flags).map .media
  | answer session sdp flags =>
      return (← RtpengineClient.answer session sdp flags).map .media
  | deleteSession session =>
      return (← RtpengineClient.deleteSession session).map fun _ => .done
  | query session => return (← RtpengineClient.query session).map .text
  | ping => return (← RtpengineClient.ping).map fun _ => .done

theorem map_request {α β : Type} (cmd : BencodeDict) (read : BencodeDict → Result α)
    (f : α → β) :
    (RtpengineClient.request cmd read >>= fun result => pure (result.map f)) =
      (sendCommand cmd).andThen fun dict => .pure ((read dict).map f) := by
  show (sendCommand cmd >>= _) >>= _ = sendCommand cmd >>= _
  rw [Program.bind_assoc]
  apply congrArg (sendCommand cmd >>= ·)
  funext result
  cases result with
  | error error => rfl
  | ok dict => rfl

/-- Every function sends its command, and reads what comes. -/
theorem run_eq (call : MediaCall) :
    call.run = (sendCommand call.command).andThen fun dict => .pure (call.read dict) := by
  cases call with
  | offer | answer | deleteSession | query | ping => exact map_request _ _ _

end MediaCall

/-! ## Rtpengine, and the network -/

/-- A cookie, a blank, and a dictionary. -/
def payloadOf (cookie : Bytes) (dict : BencodeDict) : Bytes :=
  cookie ++ bytes " " ++ bencodeEncode dict.value

/-- What fits into a UDP datagram. -/
def maxDatagram : Nat := 65507

/-- What has been sent once can arrive late, more than once or never. -/
structure MediaLink where
  client : Client := {}
  commands : List Bytes := []
  responses : List Datagram := []

/-- What an operation puts on the network. -/
def ClientOp.sent : (op : ClientOp) → ClientAnswer op → List Bytes
  | .sendTo payload, none => if payload.length ≤ maxDatagram then [payload] else []
  | _, _ => []

inductive MediaBackground where
  | client (event : ClientBackground)
  | rtpengine (cookie : Bytes) (cmd : BencodeDict) (choice : Nat)

/-- What the receiver loop reads in this step. -/
def ClientBackground.heard : ClientBackground → List Datagram
  | .receiver (.datagram datagram) => [datagram]
  | _ => []

namespace MediaLink

def serve (s : MediaLink) (op : ClientOp) (environment : ClientEnvironment) :
    Option (MediaLink × ClientAnswer op × List Nat) :=
  (s.client.serve op environment).map fun served =>
    ({ s with client := served.1, commands := s.commands ++ op.sent served.2.1 }, served.2.1,
      served.2.2)

/-- Nobody but rtpengine sends from its endpoint. It answers a command that has arrived under the
cookie of the command; what it says depends on more than the command. -/
def background (rtpengineEp : UdpEndpoint) (rtpengine : Nat → BencodeDict → BencodeDict)
    (s : MediaLink) : MediaBackground → Option MediaLink
  | .client event =>
      if ∀ datagram ∈ event.heard, datagram.sender = rtpengineEp → datagram ∈ s.responses then
        (s.client.background rtpengineEp event).map ({ s with client := · })
      else none
  | .rtpengine cookie cmd choice =>
      let response := payloadOf cookie (rtpengine choice cmd)
      if ' '.toUInt8 ∉ cookie ∧ s.commands.contains (payloadOf cookie cmd) ∧
          response.length ≤ maxDatagram then
        some { s with responses := s.responses ++ [⟨rtpengineEp, response⟩] }
      else none

end MediaLink

/-- A call, and how far it has come. -/
structure MediaThread where
  call : MediaCall
  progress : CallProgress := .fresh

def mediaService (rtpengineEp : UdpEndpoint) (rtpengine : Nat → BencodeDict → BencodeDict) :
    Service MediaLink clientOps Exception MediaThread (Result MediaAnswer) ClientEnvironment
      MediaCall MediaBackground Nat where
  serve := MediaLink.serve
  begin := MediaCall.run
  background := MediaLink.background rtpengineEp rtpengine
  fresh call := { call }
  track thread op answer := { thread with progress := thread.progress.track op answer }

abbrev MediaThreads :=
  Threads MediaLink clientOps Exception MediaThread (Result MediaAnswer)

end SimIms.Rtp
