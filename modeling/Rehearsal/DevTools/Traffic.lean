import Rehearsal.Run.Outcome

/-! # Traffic

The requests of a page, put together from the notices that come in about them. A request counts once
it has ended; notices about a request that is not under way are passed over.
-/
namespace Rehearsal.DevTools

open Decimal (Binary64)

/-- A request under way, and when it was sent. -/
structure PendingRequest where
  id : String
  url : String
  method : String
  status : Option Nat
  sentAt : Nat
deriving DecidableEq, Repr

/-- What a page tells about one of its requests. -/
inductive Notice where
  | sent (id url method : String)
  | response (id : String) (status : Int)
  | finished (id : String) (length : Binary64)
  | failed (id reason : String)
deriving DecidableEq, Repr

structure Traffic where
  pending : List PendingRequest
  ended : List NetworkRequest
deriving DecidableEq, Repr

namespace Traffic

def empty : Traffic := ⟨[], []⟩

def statusMax : Nat := 65535

/-- A status as it is kept; one out of range is none. -/
def status? (status : Int) : Option Nat :=
  if 0 ≤ status ∧ status ≤ statusMax then some status.toNat else none

/-- A length in bytes: the whole part, at least zero and at most what 64 bits hold. -/
def sizeOf (length : Binary64) : Nat :=
  if length.isBelowZero then 0 else min length.wholePart Text.wordMax

def complete (t : Traffic) (now : Nat) (id : String) (size : Nat) (error : Option String) : Traffic :=
  match t.pending.find? (·.id == id) with
  | none => t
  | some r =>
    { pending := t.pending.filter (·.id != id)
      ended := t.ended ++ [⟨r.url, r.method, r.status, now - r.sentAt, size, error⟩] }

def hear (t : Traffic) (now : Nat) : Notice → Traffic
  | .sent id url method =>
    { t with pending := ⟨id, url, method, none, now⟩ :: t.pending.filter (·.id != id) }
  | .response id status =>
    { t with pending := t.pending.map fun r => if r.id = id then { r with status := status? status } else r }
  | .finished id length => t.complete now id (sizeOf length) none
  | .failed id reason => t.complete now id 0 (some reason)

end Traffic

end Rehearsal.DevTools
