/-
# What a reconciliation does to its surroundings

A reconciliation calls the resource store and, when its writes are paced, sleeps.
Everything it does is written as a `Work`, a program of such effects.
-/

import Reconciliation.Program
import Reconciliation.Cluster.Store
import Reconciliation.Engine.Machine

namespace Reconciliation

/-- One effect of a reconciliation. -/
inductive Effect where
  | call (r : Request)
  | sleep (d : Duration)

/-- What an effect gives back. -/
@[reducible] def Effect.Reply : Effect → Type
  | call r => r.Reply
  | sleep _ => Unit

/-- A program of effects. -/
abbrev Work := Program Effect Effect.Reply

/-- A program of effects that a failing call to the store ends. -/
abbrev StoreWork := ExceptT StoreError Work

/-- Why an action, a check or a write of the progress failed. -/
inductive Failure where
  | store (error : StoreError)
  | config (error : ConfigError)
  | other (message : String)
deriving DecidableEq, Repr

/-- The message of a failure. -/
def Failure.message : Failure → String
  | store error => error.message
  | config error => error.message
  | other message => message

/-- Makes one call to the store. -/
def callStore (r : Request) : Work r.Reply := Program.request (Effect.call r)

/-- Sleeps. -/
def sleepFor (d : Duration) : Work Unit := Program.request (Effect.sleep d)

/-- Looks a resource up. -/
def getResource (kind : Kind) (name : ResourceName) : StoreWork kind.Object :=
  ExceptT.mk (callStore (.get kind name))

/-- Adds a resource. -/
def createResource (kind : Kind) (object : kind.Object) : StoreWork Unit :=
  ExceptT.mk (callStore (.create kind object))

/-- Replaces a resource. -/
def updateResource (kind : Kind) (object : kind.Object) : StoreWork Unit :=
  ExceptT.mk (callStore (.update kind object))

/-- Replaces the status of a cluster. -/
def updateClusterStatus (cluster : DbCluster) : StoreWork Unit :=
  ExceptT.mk (callStore (.updateStatus cluster))

/-- Looks a resource up; one that is not there is no failure. -/
def findResource (kind : Kind) (name : ResourceName) : StoreWork (Option kind.Object) :=
  ExceptT.mk do
    match ← callStore (.get kind name) with
    | .ok object => pure (.ok (some object))
    | .error error => if error.isNotFound then pure (.ok none) else pure (.error error)

/-- Adds a resource; under a taken name, replaces what is there. -/
def createOrUpdate (kind : Kind) (object : kind.Object) : StoreWork Unit :=
  ExceptT.mk do
    match ← callStore (.create kind object) with
    | .ok () => pure (.ok ())
    | .error error =>
      if error.isAlreadyExists then callStore (.update kind object) else pure (.error error)

end Reconciliation
