/-
# Tables under construction

A table of a TOML document may be filled from several places, but none of its keys
may be given twice, and a table is opened at most once.  So a table remembers how it
came about: by its own header, by the header of a table inside it, or by a dotted
key.  A table of the second kind may still get its header, one of the third may get
further dotted keys.
-/

import Reconciliation.Settings.Tree

namespace Reconciliation
namespace Toml

/-- How a table came about. -/
inductive Origin where
  | header
  | implied
  | dotted
deriving DecidableEq

/-- What stands under a key. -/
inductive Node where
  | value (setting : Setting)
  | table (origin : Origin) (members : List (String × Node))
  /-- Tables in a list: the one under construction, and the earlier ones, the latest
  first. -/
  | tables (current : List (String × Node)) (earlier : List Setting)

mutual
/-- The setting that a node has become. -/
def Node.setting : Node → Setting
  | .value setting => setting
  | .table _ members => .table (membersSettings members)
  | .tables current earlier => .list (.table (membersSettings current) :: earlier).reverse
termination_by structural node => node

/-- The entries that members have become. -/
def membersSettings : List (String × Node) → List (String × Setting)
  | [] => []
  | (key, node) :: rest => (key, node.setting) :: membersSettings rest
termination_by structural members => members
end

/-- A table under construction. -/
structure Block where
  origin : Origin
  members : List (String × Node)

namespace Block

/-- The block of a header. -/
def opened : Block := ⟨.header, []⟩

instance : Inhabited Block := ⟨opened⟩

/-- The entries that a block has become. -/
def settings (block : Block) : List (String × Setting) := membersSettings block.members

/-- The block with a node under a key. -/
def put (block : Block) (key : String) (node : Node) : Block :=
  { block with members := putEntry key node block.members }

/-- The block with a node under a key that comes last, wherever the key stood before. -/
def putLast (block : Block) (key : String) (node : Node) : Block :=
  { block with members := block.members.filter (fun member => member.1 ≠ key) ++ [(key, node)] }

/-- Changes the block at the end of a path of keys; blocks that are missing on the
way come about as `origin` says.  A path of dotted keys does not go through a block
that has its own header.  A path goes through a list of tables by its current
one. -/
def change (origin : Origin) (f : Block → Option Block) : List String → Block → Option Block
  | [], block => f block
  | key :: path, block =>
    match findEntry key block.members with
    | none => (change origin f path ⟨origin, []⟩).map fun inner =>
        block.put key (.table inner.origin inner.members)
    | some (.value _) => none
    | some (.table created members) =>
      if origin = .dotted ∧ created = .header then none
      else (change origin f path ⟨created, members⟩).map fun inner =>
        block.put key (.table inner.origin inner.members)
    | some (.tables current earlier) =>
      (change origin f path ⟨.header, current⟩).map fun inner =>
        block.put key (.tables inner.members earlier)

/-- Gives a key of the block its value; a key is given only once. -/
def define (key : String) (setting : Setting) (block : Block) : Option Block :=
  match findEntry key block.members with
  | none => some (block.put key (.value setting))
  | some _ => none

/-- Gives the key at the end of a path its value.  A single key belongs to a block
that is no dotted one, the last of several keys to a dotted one. -/
def assign (path : List String) (setting : Setting) (block : Block) : Option Block := do
  let key ← path.getLast?
  let parents := path.dropLast
  block.change .dotted (fun inner =>
    if (inner.origin = .dotted) = (parents = []) then none else inner.define key setting) parents

/-- Opens the table at the end of a path by its header, which is also its place among
the other members. -/
def openTable (path : List String) (block : Block) : Option Block := do
  let key ← path.getLast?
  block.change .implied (fun parent =>
    match findEntry key parent.members with
    | none => some (parent.put key (.table .header []))
    | some (.table .implied members) => some (parent.putLast key (.table .header members))
    | some _ => none) path.dropLast

/-- Opens another table of the list of tables at the end of a path. -/
def openItem (path : List String) (block : Block) : Option Block := do
  let key ← path.getLast?
  block.change .implied (fun parent =>
    match findEntry key parent.members with
    | none => some (parent.put key (.tables [] []))
    | some (.tables current earlier) =>
      some (parent.put key (.tables [] (.table (membersSettings current) :: earlier)))
    | some _ => none) path.dropLast

end Block
end Toml
end Reconciliation
