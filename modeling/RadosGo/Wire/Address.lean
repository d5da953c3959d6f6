import RadosGo.Wire.Codec

namespace RadosGo

def linuxAFUnspec : Nat := 0
def linuxAFInet : Nat := 2
def linuxAFInet6 : Nat := 10
def legacySockaddrSize : Nat := 128

def addressNone : Nat := 0
def addressLegacy : Nat := 1

/-- An entity address: the Linux socket address bytes behind the family. -/
structure EntityAddr where
  type : Nat := 0
  nonce : Nat := 0
  family : Nat := 0
  socketData : List UInt8 := []
  deriving DecidableEq, Repr

abbrev EntityAddrVec := List EntityAddr

def socketDataLength (family : Nat) : Except GoError Nat :=
  if family = linuxAFInet then .ok 14
  else if family = linuxAFUnspec ∨ family = linuxAFInet6 then .ok 26
  else .error (GoError.errorf Sentinel.invalidAddress s!"unsupported Linux address family {family}")

open Decoding

def decodeLegacyAddr : Decoding EntityAddr := do
  let _ ← raw 3
  let nonce ← uint32
  let sockaddr ← raw legacySockaddrSize
  finish
  let family := fromLittleEndian (sockaddr.take 2).reverse
  let dataLength ← MonadExcept.ofExcept (socketDataLength family)
  return {
    type := if family = linuxAFUnspec then addressNone else addressLegacy
    nonce, family
    socketData := (sockaddr.drop 2).take dataLength }

/-- What follows the header of a modern address. -/
def decodeAddrPayload : Decoding EntityAddr := do
  let type ← uint32
  let nonce ← uint32
  let encodedLength ← uint32
  if encodedLength = 0 then
    finish
    return { type, nonce, socketData := List.replicate 26 0 }
  if encodedLength < 2 then
    throw (GoError.errorf Sentinel.invalidAddress s!"sockaddr length {encodedLength}")
  let family ← uint16
  let dataLength := encodedLength - 2
  match socketDataLength family with
  | .error _ => throw (GoError.errorf Sentinel.invalidAddress s!"family {family} length {encodedLength}")
  | .ok maximum =>
    if dataLength > maximum then
      throw (GoError.errorf Sentinel.invalidAddress s!"family {family} length {encodedLength}")
    let data ← raw dataLength
    finish
    return { type, nonce, family, socketData := (data ++ List.replicate maximum 0).take maximum }

def decodeEntityAddrAfterMarker (marker : Nat) : Decoding EntityAddr := do
  if marker = 0 then decodeLegacyAddr
  else if marker = 1 then
    let (_, payload) ← versioned 1
    let address ← within payload decodeAddrPayload
    finish
    return address
  else throw (GoError.errorf Sentinel.invalidAddress s!"marker {marker}")

def decodeEntityAddr : Decoding EntityAddr := do
  let marker ← uint8
  finish
  decodeEntityAddrAfterMarker marker

def decodeEntityAddrVec (maxAddresses : Nat) : Decoding EntityAddrVec := do
  let marker ← uint8
  finish
  if marker < 2 then return [← decodeEntityAddrAfterMarker marker]
  if marker > 2 then
    throw (GoError.errorf Sentinel.invalidAddress s!"address vector marker {marker}")
  let count ← uint32
  if count > maxAddresses then throw (GoError.sentinel .wireLimitExceeded)
  if count > (← remaining) then throw (GoError.sentinel .wireMalformed)
  let addresses ← readMany decodeEntityAddr count
  finish
  return addresses

end RadosGo
