import SimIms.Diameter.HssClient
import SimIms.SCscf.AuthManager
import SimIms.Sip.Headers

/-!
# The interface of the authentication providers

A provider says which requests it is for, makes challenges and verifies the answers to them.
Providers of which nothing is known but their answers are `AuthProvider.remote`.
-/

namespace SimIms.SCscf

open Cxx Lib Sip Diameter

structure AuthChallenge where
  sessionKey : Bytes
  impi : Bytes
  impu : Bytes
  scheme : Bytes
  realm : Bytes
  wwwAuthenticate : Bytes
deriving DecidableEq, Repr

structure AuthVerificationResult where
  sessionKey : Bytes
  impi : Bytes
  impu : Bytes
  scheme : Bytes
deriving DecidableEq, Repr

/-- `IAuthProvider`. -/
structure AuthProvider (G : Interface) where
  canHandleInitialRegister : SipMessage → Program G Exception Bool
  canHandleAuthorization : SipMessage → Program G Exception Bool
  createChallenge : SipMessage → Program G Exception (Result AuthChallenge)
  verifyAuthorization : SipMessage → Program G Exception (Result AuthVerificationResult)

def authError (message : String) : ErrorInfo :=
  { code := .diameterAuthFailed, message := bytes message }

/-- The private and the public identity of a request. -/
def extractImpi [OsipParser] (msg : SipMessage) : Bytes :=
  normalizeImpuUri (msg.impiFromAuthorizationOrFrom.getD msg.fromHeader)

def extractImpu [OsipParser] (msg : SipMessage) : Bytes :=
  normalizeImpuUri (msg.impuFromTo.getD msg.toHeader)

/-! ## Providers elsewhere -/

inductive ProviderOp where
  | canHandleInitialRegister (provider : Nat) (request : SipMessage)
  | canHandleAuthorization (provider : Nat) (request : SipMessage)
  | createChallenge (provider : Nat) (request : SipMessage)
  | verifyAuthorization (provider : Nat) (request : SipMessage)

abbrev ProviderAnswer : ProviderOp → Type
  | .canHandleInitialRegister _ _ => Bool
  | .canHandleAuthorization _ _ => Bool
  | .createChallenge _ _ => Result AuthChallenge
  | .verifyAuthorization _ _ => Result AuthVerificationResult

def providerRequests : Interface := ⟨ProviderOp, ProviderAnswer⟩

/-- Each request to the provider with this number is one operation, which the environment
answers. -/
def AuthProvider.remote {G : Interface} [Includes providerRequests G] (provider : Nat) :
    AuthProvider G :=
  let perform (op : ProviderOp) : Program G Exception (ProviderAnswer op) :=
    Program.perform (F := providerRequests) op
  { canHandleInitialRegister := fun request => perform (.canHandleInitialRegister provider request)
    canHandleAuthorization := fun request => perform (.canHandleAuthorization provider request)
    createChallenge := fun request => perform (.createChallenge provider request)
    verifyAuthorization := fun request => perform (.verifyAuthorization provider request) }

end SimIms.SCscf
