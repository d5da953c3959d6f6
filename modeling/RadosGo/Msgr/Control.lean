import RadosGo.Msgr.Message
import RadosGo.Wire.Address

namespace RadosGo

structure Endpoint where
  address : List UInt8
  port : Nat
  deriving DecidableEq, Repr

def bigEndian (bytes : List UInt8) : Nat := bytes.foldl (fun value byte => 256 * value + byte.toNat) 0

/-- The address and port of an IPv4 (family 2) or IPv6 (family 10) address.
The number of address bytes keeps the two apart. -/
def EntityAddr.addrPort (address : EntityAddr) : Option Endpoint :=
  if address.family = 2 then
    if address.socketData.length ≠ 14 then none
    else some ⟨(address.socketData.drop 2).take 4, bigEndian (address.socketData.take 2)⟩
  else if address.family = 10 then
    if address.socketData.length ≠ 26 then none
    else some ⟨(address.socketData.drop 6).take 16, bigEndian (address.socketData.take 2)⟩
  else none

def containsEntityEndpoint (addresses : List EntityAddr) (target : EntityAddr) : Bool :=
  match target.addrPort with
  | none => false
  | some endpoint => addresses.any fun address => address.addrPort == some endpoint

structure ClientIdent where
  addresses : List EntityAddr := []
  targetAddress : EntityAddr := {}
  globalID : Nat := 0
  globalSequence : Nat := 0
  supportedFeatures : Nat := 0
  requiredFeatures : Nat := 0
  flags : Nat := 0
  cookie : Nat := 0
  deriving DecidableEq, Repr

structure ServerIdent where
  addresses : List EntityAddr := []
  globalID : Nat := 0
  globalSequence : Nat := 0
  supportedFeatures : Nat := 0
  requiredFeatures : Nat := 0
  flags : Nat := 0
  cookie : Nat := 0
  deriving DecidableEq, Repr

structure SessionReconnect where
  addresses : List EntityAddr
  clientCookie : Nat
  serverCookie : Nat
  globalSequence : Nat
  connectSequence : Nat
  messageSequence : Nat
  deriving DecidableEq, Repr

structure Timestamp where
  seconds : Nat
  nanoseconds : Nat
  deriving DecidableEq, Repr

/-- The control payloads of a session. The authentication payloads, which the
session owner never accepts, are kept by the name of their type. -/
inductive Control where
  | clientIdent (ident : ClientIdent)
  | serverIdent (ident : ServerIdent)
  | identMissingFeatures (features : Nat)
  | sessionReconnect (request : SessionReconnect)
  | sessionReset (full : Bool)
  | sessionRetry (connectSequence : Nat)
  | sessionRetryGlobal (globalSequence : Nat)
  | sessionReconnectOK (messageSequence : Nat)
  | wait
  | keepalive2 (timestamp : Timestamp)
  | keepalive2Ack (timestamp : Timestamp)
  | ack (sequence : Nat)
  | authentication (typeName : String)
  deriving DecidableEq, Repr

/-- `EncodeControl`, `DecodeControl` and `DecodeMessage` as the owner uses
them. Nothing about the owner depends on how the payloads are laid out. -/
structure FrameCodec where
  encodeControl : Control → Limits → Except GoError Frame
  decodeControl : Frame → Limits → Except GoError Control
  decodeMessage : Frame → Limits → Except GoError Message

def connectionFlagLossy : Nat := 1

end RadosGo
