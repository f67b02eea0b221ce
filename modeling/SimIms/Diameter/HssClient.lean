import SimIms.Db.SubscriberRepository
import SimIms.Diameter.AkaVector

/-!
# The interface of the HSS

What the S-CSCF asks the home subscriber server, and what it is answered. The answer to a
multimedia authentication keeps the record that the vector belongs to, so that statements can
name it; no function reads it there. An HSS of which nothing is known but its answers is
`HssClient.remote`.
-/

namespace SimIms.Diameter

open Cxx Lib Db

structure MarParams where
  impi : Bytes
  impu : Bytes
  sipAuthScheme : Bytes
  serverName : Bytes
deriving DecidableEq, Repr

structure MaaResult where
  sipAuthScheme : Bytes
  authVector : AuthVector
  subscriber : SubscriberRecord
deriving DecidableEq, Repr

structure SarParams where
  impi : Bytes
  impu : Bytes
  serverName : Bytes
deriving DecidableEq, Repr

structure UserProfile where
  impu : Bytes
  associatedImpus : List Bytes
deriving DecidableEq, Repr

/-- The part of `IHssClient` that the S-CSCF uses. -/
structure HssClient (G : Interface) where
  multimediaAuth : MarParams → Program G Exception (Result MaaResult)
  serverAssignment : SarParams → Program G Exception (Result UserProfile)

/-! ## An HSS elsewhere -/

inductive HssOp where
  | multimediaAuth (params : MarParams)
  | serverAssignment (params : SarParams)

abbrev HssAnswer : HssOp → Type
  | .multimediaAuth _ => Result MaaResult
  | .serverAssignment _ => Result UserProfile

def hssRequests : Interface := ⟨HssOp, HssAnswer⟩

/-- Each request is one operation, which the environment answers. -/
def HssClient.remote {G : Interface} [Includes hssRequests G] : HssClient G :=
  { multimediaAuth := fun params =>
      Program.perform (F := hssRequests) (HssOp.multimediaAuth params)
    serverAssignment := fun params =>
      Program.perform (F := hssRequests) (HssOp.serverAssignment params) }

end SimIms.Diameter
