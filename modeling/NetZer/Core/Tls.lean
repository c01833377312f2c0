import NetZer.Core.Buffer
import NetZer.Lib.Text

/-! # TLS ClientHello

`TlsClientHello::parse`: the fixed part of the hello up to its extensions, a
loop over the extensions, and inside a `server_name` extension a loop over its
names. The function is recorded as a call, so that a panic in it can be told
from a panic anywhere else.
-/

namespace NetZer

open Rust

structure TlsClientHello where
  sni : String
deriving DecidableEq, Repr

namespace TlsClientHello

/-- `((buffer[i] as usize) << 8) | (buffer[i + 1] as usize)`. -/
def be16At (buffer : List UInt8) (i : Nat) : Run Nat := do
  let hi ← index buffer i
  let lo ← index buffer (i + 1)
  return hi.toNat <<< 8 ||| lo.toNat

/-- One pass of the loop over the names; `none` leaves the loop for the next
extension, a result leaves the function. -/
def nameStep (buffer : List UInt8) (sniEnd : Nat) (sniOffset : Nat) :
    Run (Flow Nat (Option (Result String))) := do
  if sniEnd < sniOffset + 3 then
    return .done none
  let nameType ← index buffer sniOffset
  let nameLen ← be16At buffer (sniOffset + 1)
  let sniOffset := sniOffset + 3
  if sniOffset + nameLen > sniEnd then
    return .done (some (.error .bufferTooShort))
  -- only `host_name` entries are read, the others are passed over
  if nameType = 0 then
    let hostname ← slice buffer sniOffset (sniOffset + nameLen)
    match Text.fromUtf8 hostname.1 with
    | some name => return .done (some (.ok name))
    | none => return .done (some (.error .invalidFormat))
  return .next (sniOffset + nameLen)

/-- One pass of the loop over the extensions. -/
def extensionStep (buffer : List UInt8) (extensionsEnd : Nat) (offset : Nat) :
    Run (Flow Nat (Result String)) := do
  if extensionsEnd < offset + 4 then
    return .done (.error .invalidFormat)
  let extType ← be16At buffer offset
  let extLen ← be16At buffer (offset + 2)
  let offset := offset + 4
  if offset + extLen > extensionsEnd then
    return .done (.error .bufferTooShort)
  -- `server_name`: its list length is skipped, the extension's length bounds it
  if extType = 0 then
    if extLen < 2 then
      return .done (.error .invalidFormat)
    match ← loop (nameStep buffer (offset + extLen)) (buffer.length + 1) (offset + 2) with
    | some r => return .done r
    | none => return .next (offset + extLen)
  return .next (offset + extLen)

def parse (buffer : List UInt8) : Run (Result TlsClientHello) :=
  calling .tlsClientHelloParse do
    if buffer.length < 5 then
      return .error .bufferTooShort
    if (← index buffer 0) ≠ 22 then
      return .error .invalidFormat
    let recordLen ← be16At buffer 3
    if buffer.length < 5 + recordLen then
      return .error .bufferTooShort
    let offset := 5
    if (← index buffer offset) ≠ 1 then
      return .error .invalidFormat
    -- handshake length, client version, random
    let offset := offset + 4 + 2 + 32
    if buffer.length ≤ offset then
      return .error .bufferTooShort
    let sessionIdLen := (← index buffer offset).toNat
    let offset := offset + 1 + sessionIdLen
    if buffer.length < offset + 2 then
      return .error .bufferTooShort
    let cipherSuitesLen ← be16At buffer offset
    let offset := offset + 2 + cipherSuitesLen
    if buffer.length < offset + 1 then
      return .error .bufferTooShort
    let compressionMethodsLen := (← index buffer offset).toNat
    let offset := offset + 1 + compressionMethodsLen
    if buffer.length < offset + 2 then
      return .error .invalidFormat
    let extensionsLen ← be16At buffer offset
    let offset := offset + 2
    let extensionsEnd := offset + extensionsLen
    if extensionsEnd > buffer.length then
      return .error .bufferTooShort
    match ← loop (extensionStep buffer extensionsEnd) (buffer.length + 1) offset with
    | .ok sni => return .ok { sni := sni }
    | .error e => return .error e

end TlsClientHello

end NetZer
