import IntentRouting.Toml.Basic

/-!
# Tables under construction

A document defines its tables piece by piece: by headers, by keys with points in them, and by what
lies on the way to either. A table can be opened by a header once, a table that keys with points
have made can only be extended by such keys under the same header, and a value is never extended.
The functions of this module put a piece into its place or refuse it.
-/

namespace IntentRouting.Toml

/-- How a table came to be. -/
inductive Origin where
  /-- A header opened it. -/
  | header
  /-- It lies on the way to a table that a header opened. -/
  | implied
  /-- It lies on the way of a key with points. -/
  | dotted
deriving DecidableEq, Repr

/-- What stands under a key. -/
inductive Node where
  | value (value : Toml)
  | table (origin : Origin) (members : List (String × Node))
  /-- Tables that headers have added one after the other; the last of them is extended. -/
  | tables (before : List (List (String × Node))) (last : List (String × Node))

/-- The contents of a table under construction. -/
abbrev Members := List (String × Node)

/-- Puts a node in the place of the one under its key, or at the end. -/
def put (key : String) (node : Node) : Members → Members
  | [] => [(key, node)]
  | entry :: entries =>
      if entry.1 = key then (key, node) :: entries else entry :: put key node entries

/-- Changes the table at the end of a path. Tables that are not there yet are made on the way; keys
with points do not lead into tables that a header has opened. -/
def changeAt (made : Origin) (change : Origin → Members → Option Members) :
    List String → Origin → Members → Option Members
  | [], origin, members => change origin members
  | key :: path, _, members =>
      match members.lookup key with
      | none =>
          (changeAt made change path made []).map fun inner => put key (.table made inner) members
      | some (.value _) => none
      | some (.table origin inner) =>
          if made = .dotted && origin = .header then none
          else
            (changeAt made change path origin inner).map fun inner =>
              put key (.table origin inner) members
      | some (.tables before last) =>
          (changeAt made change path .header last).map fun last =>
            put key (.tables before last) members

/-- Puts a value under a key at the end of a path of keys. The last table of the path has to be one
that keys with points have made, unless the path is empty. -/
def assign (path : List String) (key : String) (value : Toml) (origin : Origin) (members : Members) :
    Option Members :=
  changeAt .dotted
    (fun origin members =>
      if decide (origin = .dotted) == path.isEmpty then none
      else if (members.lookup key).isSome then none
      else some (put key (.value value) members))
    path origin members

def openTable (path : List String) (key : String) (members : Members) : Option Members :=
  changeAt .implied
    (fun _ members =>
      match members.lookup key with
      | none => some (put key (.table .header []) members)
      | some (.table .implied inner) => some (put key (.table .header inner) members)
      | _ => none)
    path .header members

def addTable (path : List String) (key : String) (members : Members) : Option Members :=
  changeAt .implied
    (fun _ members =>
      match members.lookup key with
      | none => some (put key (.tables [] []) members)
      | some (.tables before last) => some (put key (.tables (before ++ [last]) []) members)
      | _ => none)
    path .header members

mutual

def Node.finish : Node → Toml
  | .value value => value
  | .table _ members => .table (finishMembers members)
  | .tables before last => .array (finishTables before ++ [.table (finishMembers last)])

def finishMembers : List (String × Node) → List (String × Toml)
  | [] => []
  | (key, node) :: members => (key, node.finish) :: finishMembers members

def finishTables : List (List (String × Node)) → List Toml
  | [] => []
  | members :: tables => .table (finishMembers members) :: finishTables tables

end

end IntentRouting.Toml
