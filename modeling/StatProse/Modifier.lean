import StatProse.Number.Double

/-!
# Modifiers

A modifier is a bonus that an item, a monster or an area carries: a type, a place where
it can appear and a list of stats, each with the bounds between which it is rolled.
-/

namespace StatProse

structure Stat where
  id : String
  min : Double
  max : Double
deriving DecidableEq

inductive Domain where
  | item
  | flask
  | jewel
  | abyssJewel
  | crafted
  | monster
  | chest
  | area
  | atlas
  | misc
  | delve
  | unveiled
  | other
deriving DecidableEq, Repr

namespace Domain

def name : Domain → String
  | item => "item"
  | flask => "flask"
  | jewel => "jewel"
  | abyssJewel => "abyss_jewel"
  | crafted => "crafted"
  | monster => "monster"
  | chest => "chest"
  | area => "area"
  | atlas => "atlas"
  | misc => "misc"
  | delve => "delve"
  | unveiled => "unveiled"
  | other => "other"

def all : List Domain :=
  [item, flask, jewel, abyssJewel, crafted, monster, chest, area, atlas, misc, delve, unveiled]

/-- Every name that is not listed means `other`. -/
def ofName (name : String) : Domain := (all.find? (·.name == name)).getD other

theorem ofName_name (d : Domain) : ofName d.name = d := by
  cases d <;> decide

end Domain

inductive Generation where
  | front
  | suffix
  | implicit
  | unique
  | corrupted
  | enchantment
  | other
deriving DecidableEq, Repr

namespace Generation

def name : Generation → String
  | front => "prefix"
  | suffix => "suffix"
  | implicit => "implicit"
  | unique => "unique"
  | corrupted => "corrupted"
  | enchantment => "enchantment"
  | other => "other"

def all : List Generation := [front, suffix, implicit, unique, corrupted, enchantment]

def ofName (name : String) : Generation := (all.find? (·.name == name)).getD other

theorem ofName_name (g : Generation) : ofName g.name = g := by
  cases g <;> decide

end Generation

structure Modifier where
  id : String := ""
  type : String
  domain : Domain := .item
  generation : Generation := .front
  name : String := ""
  requiredLevel : Nat := 0
  groups : List String := []
  isEssenceOnly : Bool := false
  stats : List Stat := []
deriving DecidableEq

end StatProse
