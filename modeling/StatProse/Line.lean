import StatProse.Modifier
import StatProse.Table

/-!
# Lines

The stats of a modifier are grouped into lines, each an entry with the numbers of the
stats that it covers. A stat joins the first line whose entry mentions it, or else opens a
line with the first entry that mentions it. Stats that no entry mentions are dropped.
-/

namespace StatProse

structure Roll where
  stat : Stat
  live : Option Double
deriving DecidableEq

namespace Roll

def align : List Stat → List Double → List Roll
  | [], _ => []
  -- past the end of the live values the stats have none
  | s :: stats, [] => ⟨s, none⟩ :: align stats []
  | s :: stats, v :: values => ⟨s, some v⟩ :: align stats values

def id (r : Roll) : String := r.stat.id

end Roll

/-- An entry with the numbers of one modifier. Each list has one number per slot; slots
that no stat fills hold zero. -/
structure Line where
  position : Nat
  entry : Entry
  mins : List Double
  maxs : List Double
  values : Option (List Double)
deriving DecidableEq

namespace Line

def blank (position : Nat) (e : Entry) (live : Bool) : Line where
  position := position
  entry := e
  mins := List.replicate e.slotCount 0
  maxs := List.replicate e.slotCount 0
  values := if live then some (List.replicate e.slotCount 0) else none

/-- Writes the numbers of a stat into a slot. Without a live value the slot keeps the one
it has. -/
def fillSlot (l : Line) (slot : Nat) (r : Roll) : Line :=
  { l with
    mins := l.mins.set slot r.stat.min
    maxs := l.maxs.set slot r.stat.max
    values := match r.live with
      | some v => l.values.map (·.set slot v)
      | none => l.values }

def fill (l : Line) (r : Roll) : Line :=
  match l.entry.slotOf? r.id with
  | some slot => l.fillSlot slot r
  | none => l

def min (l : Line) (slot : Nat) : Double := l.mins[slot]?.getD 0

def max (l : Line) (slot : Nat) : Double := l.maxs[slot]?.getD 0

def value? (l : Line) (slot : Nat) : Option Double := l.values.map (fun vs => vs[slot]?.getD 0)

end Line

namespace Table

/-- Gives a stat to the first line whose entry mentions it. If there is none, the stat opens
a line with the first entry of the table that mentions it, or is dropped. -/
def place (t : Table) (live : Bool) : List Line → Roll → List Line
  | [], r =>
    match t.entryFor? r.id with
    | some (position, e) => [(Line.blank position e live).fill r]
    | none => []
  | l :: lines, r =>
    if l.entry.mentions r.id then l.fill r :: lines else l :: t.place live lines r

/-- The lines of a modifier's stats. Live values belong to the stats at the same
positions; the list may be shorter or longer than that of the stats. -/
def lines (t : Table) (stats : List Stat) (values : Option (List Double)) : List Line :=
  (Roll.align stats (values.getD [])).foldl (t.place values.isSome) []

end Table

end StatProse
