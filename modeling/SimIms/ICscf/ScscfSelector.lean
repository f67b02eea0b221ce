import SimIms.Diameter.MongoHssClient

/-!
# Selecting the S-CSCF

For a registration the HSS is asked with a UAR, for routing with an LIR. What it answers is a URI,
from which the I-CSCF takes the endpoint that it forwards to.
-/

namespace SimIms.ICscf

open Cxx Lib Sip Db Diameter

namespace ScscfSelector

variable [OsipParser] {G : Interface} [Includes repository G]

/-- Choosing a server by capabilities is not implemented. -/
def selectForRegistration (defaultScscfUri impi impu : Bytes) :
    Program G Exception (Result Bytes) :=
  (MongoHssClient.userAuthorization defaultScscfUri impi impu).andThen fun assignedScscf =>
    if assignedScscf = [] then
      .pure (.error { code := .diameterAuthFailed
                      message :=
                        bytes "No S-CSCF assigned and capability selection not implemented" })
    else .pure (.ok assignedScscf)

def selectForRouting (defaultScscfUri impu : Bytes) : Program G Exception (Result Bytes) :=
  (MongoHssClient.locationInfo defaultScscfUri impu).andThen fun assignedScscf =>
    if assignedScscf = [] then
      .pure (.error { code := .diameterUserNotFound
                      message := bytes "No serving S-CSCF found for " ++ impu })
    else .pure (.ok assignedScscf)

end ScscfSelector
end SimIms.ICscf
