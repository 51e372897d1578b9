/-
# Requests of the Go client

`NewRequest` fixes the log id, the magic number and the body length of the
header, and wraps the body in a reader limited to that length. `Request.Write`
writes the header and then copies the limited body. A body that was never given
is a nil reader, which the copy dereferences.
-/

import Xrtc.Xrpc.Header

namespace Xrtc.Xrpc

open Xrtc.Machine

/-- `io.LimitReader` over the unread bytes of a buffer. -/
structure LimitReader where
  source : List UInt8
  limit : ℕ

/-- All the bytes a limited reader yields before its end of file. -/
def LimitReader.contents (reader : LimitReader) : List UInt8 :=
  reader.source.take reader.limit

/-- An RPC request: its header and, unless no body was given, the body reader. -/
structure Request where
  header : Header
  body : Option LimitReader := none

/-- `NewRequest` for a `*bytes.Buffer` body, or for a nil one. The length is
converted to `uint32`. -/
def newRequest (body : Option (List UInt8)) (logId : UInt32) : Request :=
  let header : Header := { logId := logId, magicNum := HEADER_MAGICNUM }
  match body with
  | none => { header := header }
  | some buffer =>
      let header := { header with bodyLen := UInt32.ofNat buffer.length }
      { header := header, body := some ⟨buffer, header.bodyLen.toNat⟩ }

/-- The bytes `Request.Write` hands to a writer that accepts all of them. -/
def Request.write (r : Request) : Except String (List UInt8) := do
  let head ← r.header.write
  match r.body with
  | none => .error "invalid memory address or nil pointer dereference"
  | some reader => .ok (head ++ reader.contents)

/-- The header that a request with this log id and body length carries. -/
def requestHeader (logId : UInt32) (length : ℕ) : Header :=
  { logId := logId, magicNum := HEADER_MAGICNUM, bodyLen := UInt32.ofNat length }

/-- The frame of a request: its header followed by its whole body. -/
def requestFrame (logId : UInt32) (body : List UInt8) : List UInt8 :=
  (requestHeader logId body.length).bytes ++ body

/-- What is written of a body: as much as its length modulo `2 ^ 32` allows. -/
theorem newRequest_write_take (logId : UInt32) (body : List UInt8) :
    (newRequest (some body) logId).write =
      .ok ((requestHeader logId body.length).bytes ++ body.take (body.length % 2 ^ 32)) := by
  have hlimit : (UInt32.ofNat body.length).toNat = body.length % 2 ^ 32 := UInt32.toNat_ofNat'
  simp only [Request.write, newRequest, Header.write_eq, LimitReader.contents, hlimit]
  rfl

/-- A body that the 32-bit length can describe is written in full. -/
theorem newRequest_write {logId : UInt32} {body : List UInt8} (hlen : body.length < 2 ^ 32) :
    (newRequest (some body) logId).write = .ok (requestFrame logId body) := by
  rw [newRequest_write_take, Nat.mod_eq_of_lt hlen, List.take_length, requestFrame]

end Xrtc.Xrpc
