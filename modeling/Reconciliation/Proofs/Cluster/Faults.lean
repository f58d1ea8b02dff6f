/-
# Work in a store some of whose calls fail

Nobody else is around, but calls may fail before they reach the store, in any pattern:
`FaultyStore.failures` says which of the next calls do, and with which error.  The store
keeps a list of its calls, so that what happened can be told from what a call answered.

`FaultyStore.Ends` is what holds when work has ended, with one rule for each way to put
work together.  Work that only makes some requests keeps whatever these requests keep
(`Ends.of_only`).
-/

import Reconciliation.Proofs.Cluster.Requests

namespace Reconciliation

/-- A store some of whose calls fail before they reach it. -/
structure FaultyStore where
  store : Store
  /-- For each of the next calls the error with which it fails, if it fails; the calls
  after these reach the store. -/
  failures : List (Option StoreError)
  /-- The calls made so far, the latest first, with the errors with which they failed
  before they reached the store. -/
  calls : List (Request × Option StoreError)

namespace FaultyStore

/-- After a call that has reached the store. -/
def reached (b : FaultyStore) (instant : Bool) (r : Request) : FaultyStore :=
  ⟨(b.store.perform instant r).2, b.failures.tail, (r, none) :: b.calls⟩

/-- After a call that has failed. -/
def failed (b : FaultyStore) (r : Request) (error : StoreError) : FaultyStore :=
  ⟨b.store, b.failures.tail, (r, some error) :: b.calls⟩

/-- What a call does, and its reply. -/
def answer (instant : Bool) (r : Request) (b : FaultyStore) : r.Reply × FaultyStore :=
  match b.failures with
  | some error :: _ => (.error error, b.failed r error)
  | _ => ((b.store.perform instant r).1, b.reached instant r)

/-- What an effect does. -/
def handle (instant : Bool) : (e : Effect) → FaultyStore → e.Reply × FaultyStore
  | .call r, b => b.answer instant r
  | .sleep _, b => ((), b)

@[simp] theorem store_reached_get (b : FaultyStore) (instant : Bool) (kind : Kind)
    (name : ResourceName) : (b.reached instant (.get kind name)).store = b.store := by
  rw [reached, Scene.Leads.perform_get]

/-- When the work has ended, `Q` holds. -/
def Ends (b : FaultyStore) (instant : Bool) {α : Type} (work : Work α)
    (Q : α → FaultyStore → Prop) : Prop :=
  Q (work.run (handle instant) b).1 (work.run (handle instant) b).2

namespace Ends

variable {b : FaultyStore} {instant : Bool} {α β : Type}

theorem mono {work : Work α} {Q P : α → FaultyStore → Prop} (h : b.Ends instant work Q)
    (himp : ∀ a b', Q a b' → P a b') : b.Ends instant work P :=
  himp _ _ h

theorem and {work : Work α} {Q P : α → FaultyStore → Prop} (h : b.Ends instant work Q)
    (h' : b.Ends instant work P) : b.Ends instant work fun a b' => Q a b' ∧ P a b' :=
  ⟨h, h'⟩

theorem bind {work : Work α} {next : α → Work β} {Q : β → FaultyStore → Prop}
    (h : b.Ends instant work fun a b' => b'.Ends instant (next a) Q) :
    b.Ends instant (work >>= next) Q := by
  rw [Ends, Program.run_bind]
  exact h

theorem run_bind {work : StoreWork α} {next : α → StoreWork β}
    {Q : Except StoreError β → FaultyStore → Prop}
    (h : b.Ends instant work.run fun x b' =>
      match x with
      | .ok a => b'.Ends instant (next a).run Q
      | .error error => Q (.error error) b') : b.Ends instant (work >>= next).run Q := by
  rw [ExceptT.run_bind]
  refine bind (h.mono fun x b' hx => ?_)
  cases x with
  | ok a => exact hx
  | error error => exact hx

/-- A call reaches the store or fails before it. -/
theorem call {r : Request} {Q : r.Reply → FaultyStore → Prop}
    (hreached : Q (b.store.perform instant r).1 (b.reached instant r))
    (hfailed : ∀ error, Q (.error error) (b.failed r error)) :
    b.Ends instant (callStore r) Q := by
  show Q (b.answer instant r).1 (b.answer instant r).2
  unfold answer
  split
  · exact hfailed _
  · exact hreached

/-- Looking up what may be there: it is found as it is stored, unless the call fails; a call
that fails as if nothing was there finds nothing. -/
theorem findResource {kind : Kind} {name : ResourceName}
    {Q : Except StoreError (Option kind.Object) → FaultyStore → Prop}
    (hfound : Q (.ok (b.store.get? kind name)) (b.reached instant (.get kind name)))
    (hmisled : ∀ error, error.isNotFound = true → Q (.ok none) (b.failed (.get kind name) error))
    (hfailed : ∀ error, Q (.error error) (b.failed (.get kind name) error)) :
    b.Ends instant (Reconciliation.findResource kind name).run Q := by
  refine bind (call (r := .get kind name) ?_ fun error => ?_)
  · rw [Scene.Leads.perform_get]
    cases hget : b.store.get? kind name <;> rwa [hget] at hfound
  · dsimp only
    split
    · exact hmisled error ‹_›
    · exact hfailed error

/-- Looking up what has to be there. -/
theorem getResource {kind : Kind} {name : ResourceName}
    {Q : Except StoreError kind.Object → FaultyStore → Prop}
    (hfound : ∀ object, b.store.get? kind name = some object →
      Q (.ok object) (b.reached instant (.get kind name)))
    (hmissing : b.store.get? kind name = none →
      Q (.error (.notFound kind name)) (b.reached instant (.get kind name)))
    (hfailed : ∀ error, Q (.error error) (b.failed (.get kind name) error)) :
    b.Ends instant (Reconciliation.getResource kind name).run Q := by
  refine call (r := .get kind name) ?_ hfailed
  rw [Scene.Leads.perform_get]
  cases hget : b.store.get? kind name with
  | some object => exact hfound object hget
  | none => exact hmissing hget

/-- **Work that makes only allowed requests keeps what each of them keeps**, whether it
reaches the store or fails. -/
theorem of_only {allowed : Request → Prop} {Keeps : FaultyStore → Prop} {Q : α → Prop}
    {work : Work α} (h : Only allowed Q work) (hb : Keeps b)
    (hcall : ∀ {r b'}, allowed r → Keeps b' →
      Keeps (b'.reached instant r) ∧ ∀ error, Keeps (b'.failed r error)) :
    b.Ends instant work fun a b' => Q a ∧ Keeps b' := by
  induction h generalizing b with
  | done h => exact ⟨h, hb⟩
  | @call r next h _ ih =>
    obtain ⟨hreached, hfailed⟩ := hcall h hb
    exact bind (call (r := r) (ih _ hreached) fun error => ih _ (hfailed error))
  | sleep _ ih => exact ih hb

/-- Work that makes no call about clusters keeps what all other calls keep. -/
theorem of_aloof {Keeps : FaultyStore → Prop} {work : Work α} (h : Aloof work) (hb : Keeps b)
    (hcall : ∀ {r b'}, r.kind ≠ .cluster → Keeps b' →
      Keeps (b'.reached instant r) ∧ ∀ error, Keeps (b'.failed r error)) :
    b.Ends instant work fun _ b' => Keeps b' :=
  (of_only (.of_aloof h) hb hcall).mono fun _ _ h => h.2

end Ends
end FaultyStore

end Reconciliation
