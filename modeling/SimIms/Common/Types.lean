import SimIms.Cxx.Text

/-!
# Types shared by all components

`Result` is `std::expected` with an `ErrorInfo`. Times are milliseconds of the steady
clock.
-/

namespace SimIms

open Cxx

inductive ErrorCode where
  | sipParseError
  | sipTransactionFailed
  | sipTransportError
  | sipTimeout
  | sipDialogNotFound
  | diameterConnectFailed
  | diameterTimeout
  | diameterAuthFailed
  | diameterUserNotFound
  | mediaRtpengineError
  | mediaSdpError
  | configInvalidValue
  | registrationNotFound
  | registrationExpired
  | internalError
deriving DecidableEq, Repr

structure ErrorInfo where
  code : ErrorCode
  message : Bytes
  detail : Bytes := []
deriving DecidableEq, Repr

abbrev Result (α : Type) := Except ErrorInfo α

structure Endpoint where
  address : Bytes
  port : UInt16
  transport : Bytes
deriving DecidableEq, Repr

end SimIms
