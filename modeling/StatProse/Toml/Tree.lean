import StatProse.Toml.Value

/-!
# Tables under construction

A document fills tables step by step, so each table remembers how it came about: by a
header, by a dotted key, or only as the parent of another table. That decides what may
still be added to it. Values, inline tables among them, are closed.
-/

namespace StatProse.Toml

inductive TableKind where
  | headed
  /-- Only passed through by the header of a table inside. -/
  | passed
  /-- Passed through by a dotted key. -/
  | dotted
deriving DecidableEq

inductive Node where
  | value (v : Value)
  | table (kind : TableKind) (members : List (String × Node))
  /-- An array of tables; the last of them is still open. -/
  | tables (items : List (List (String × Node)))

abbrev Members := List (String × Node)

namespace Members

def set (key : String) (node : Node) : Members → Members
  | [] => [(key, node)]
  | member :: members =>
    if member.1 = key then (key, node) :: members else member :: set key node members

/-- Adds a value under a new key. A dotted key leads through tables that dotted keys made;
on the way it may pass a table that only stands above a headed one, and the last table of
an array. -/
def add (key : String) (v : Value) : List String → Members → Option Members
  | [], members =>
    if (members.lookup key).isSome then none else some (set key (.value v) members)
  | part :: path, members =>
    match members.lookup part with
    | none => (add key v path []).map (fun inner => set part (.table .dotted inner) members)
    | some (.table kind inner) =>
      -- a dotted key may pass a table that only stands above others, but adds nothing to it
      if kind = .headed || (kind = .passed && path.isEmpty) then none
      else (add key v path inner).map (fun inner => set part (.table kind inner) members)
    | some (.tables items) =>
      match items.getLast?, path with
      | some last, _ :: _ =>
        (add key v path last).map
          (fun last => set part (.tables (items.dropLast ++ [last])) members)
      | _, _ => none
    | some (.value _) => none

/-- Changes what a header names. Tables on the way are made as needed, and an array of
tables is entered at its last item. -/
def alter (change : Option Node → Option Node) : List String → Members → Option Members
  | [], _ => none
  | [key], members => (change (members.lookup key)).map (fun node => set key node members)
  | part :: path, members =>
    match members.lookup part with
    | none => (alter change path []).map (fun inner => set part (.table .passed inner) members)
    | some (.table kind inner) =>
      (alter change path inner).map (fun inner => set part (.table kind inner) members)
    | some (.tables items) =>
      match items.getLast? with
      | none => none
      | some last =>
        (alter change path last).map
          (fun last => set part (.tables (items.dropLast ++ [last])) members)
    | some (.value _) => none

end Members

namespace Node

def head : Option Node → Option Node
  | none => some (.table .headed [])
  | some (.table .passed members) => some (.table .headed members)
  | some _ => none

def extend : Option Node → Option Node
  | none => some (.tables [[]])
  | some (.tables items) => some (.tables (items ++ [[]]))
  | some _ => none

def addTo (path : List String) (key : String) (v : Value) : Option Node → Option Node
  | some (.table kind members) => (Members.add key v path members).map (.table kind)
  | some (.tables items) =>
    match items.getLast? with
    | none => none
    | some last =>
      (Members.add key v path last).map (fun last => .tables (items.dropLast ++ [last]))
  | _ => none

mutual
def close : Node → Value
  | value v => v
  | table _ members => .table (closeMembers members)
  | tables items => .array (closeTables items)
def closeMembers : List (String × Node) → List (String × Value)
  | [] => []
  | (key, node) :: members => (key, node.close) :: closeMembers members
def closeTables : List (List (String × Node)) → List Value
  | [] => []
  | members :: items => .table (closeMembers members) :: closeTables items
end

end Node

end StatProse.Toml
