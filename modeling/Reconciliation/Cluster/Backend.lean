/-
# A store that can be watched and made to fail

A `Backend` is the store in memory with a note of every call made through it and
with faults: calls that fail instead of reaching the store.
-/

import Reconciliation.Cluster.Effect

namespace Reconciliation

/-- How an injected failure looks. -/
inductive FaultKind where
  | notFound
  | alreadyExists
  | other (message : String)
deriving DecidableEq, Repr

/-- The error of an injected failure of a call. -/
def FaultKind.error (r : Request) : FaultKind → StoreError
  | notFound => .notFound r.kind r.name
  | alreadyExists => .alreadyExists r.kind r.name
  | other message => .other message

/-- Lets calls of one method fail: the first `skip` of them pass, the next `times`
of them fail. -/
structure StoreFault where
  method : String
  kind : FaultKind
  skip : Nat
  times : Nat
deriving DecidableEq, Repr

/-- Goes through the faults for a call: the first that is not to be skipped and not
used up strikes. -/
def strike (r : Request) : List StoreFault → Option StoreError × List StoreFault
  | [] => (none, [])
  | fault :: faults =>
    if fault.method ≠ r.method then
      let (error, faults) := strike r faults
      (error, fault :: faults)
    else if fault.skip > 0 then
      let (error, faults) := strike r faults
      (error, { fault with skip := fault.skip - 1 } :: faults)
    else if fault.times > 0 then
      (some (fault.kind.error r), { fault with times := fault.times - 1 } :: faults)
    else
      let (error, faults) := strike r faults
      (error, fault :: faults)

/-- A store in memory that is watched. -/
structure Backend where
  store : Store
  instantRollout : Bool
  faults : List StoreFault
  /-- The calls made so far, the latest first. -/
  calls : List String
  /-- The time slept so far. -/
  slept : Duration

namespace Backend

/-- An empty store. -/
def start (instantRollout : Bool) : Backend := ⟨.empty, instantRollout, [], [], .none⟩

/-- Notes a call, and lets it fail or passes it on to the store. -/
def handleCall (r : Request) (b : Backend) : r.Reply × Backend :=
  let noted := { b with calls := r.describe :: b.calls }
  match strike r b.faults with
  | (some error, faults) => (.error error, { noted with faults := faults })
  | (none, faults) =>
    let (reply, store) := Store.perform b.instantRollout r b.store
    (reply, { noted with faults := faults, store := store })

/-- What an effect does. -/
def handle : (e : Effect) → Backend → e.Reply × Backend
  | .call r, b => handleCall r b
  | .sleep d, b => ((), { b with slept := b.slept + d })

/-- Runs work against the backend. -/
def run {α : Type} (work : Work α) (b : Backend) : α × Backend := Program.run handle work b

end Backend
end Reconciliation
