import Mathlib.Tactic.Basic

/-! # Errors and limits of the peripheral

`PeripheralError` of `crates/syauth-transport/src/peripheral.rs` and the limits of
the channel that carries a phone's responses.
-/

namespace Syauth.Transport

/-- The capacity of the channel between the response task of a peer and its waiters. -/
def responseBufferDepth : Nat := 8

/-- How much of one write the response task reads. -/
def responseReadBufBytes : Nat := 512

inductive PeripheralError where
  | adapterMissing (name : String)
  | unknownPeer (peerId : String)
  | peerAlreadyAdded (peerId : String)
  | backend (reason : String)
  | responseTimeout (peerId : String) (deadlineMs : Nat)
  deriving DecidableEq, Repr

/-- The `Display` text of the error. -/
def PeripheralError.display : PeripheralError → String
  | .adapterMissing name => "bluetooth adapter '" ++ name ++ "' not found"
  | .unknownPeer peerId => "unknown peer: peer_id=" ++ peerId
  | .peerAlreadyAdded peerId => "peer already added: peer_id=" ++ peerId
  | .backend reason => "peripheral backend error: " ++ reason
  | .responseTimeout peerId deadlineMs =>
      "response timed out: peer_id=" ++ peerId ++ " deadline=" ++ toString deadlineMs ++ "ms"

end Syauth.Transport
