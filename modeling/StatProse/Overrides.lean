import Std.Data.HashMap

/-!
# Overrides

Some modifier types have fixed texts that take the place of everything that their stats
would say.
-/

namespace StatProse

structure Override where
  type : String
  lines : List String
deriving DecidableEq

structure Overrides where
  texts : Std.HashMap String (List String) := ∅

namespace Overrides

def empty : Overrides := {}

instance : Inhabited Overrides := ⟨empty⟩

def insert (o : Overrides) (type : String) (lines : List String) : Overrides :=
  ⟨o.texts.insert type lines⟩

def insertAll (o : Overrides) (items : List Override) : Overrides :=
  items.foldl (fun o item => o.insert item.type item.lines) o

/-- The types whose stats have no usable phrasing and whose text is the same at every tier. -/
def builtin : Overrides := empty.insert "AbyssJewelSocket" ["Has 1 Abyssal Socket"]

def get? (o : Overrides) (type : String) : Option (List String) := o.texts[type]?

@[simp] theorem get?_empty (type : String) : empty.get? type = none := by
  simp [get?, empty]

theorem get?_insert (o : Overrides) (type other : String) (lines : List String) :
    (o.insert type lines).get? other = if type = other then some lines else o.get? other := by
  simp [get?, insert, Std.HashMap.getElem?_insert]

end Overrides

end StatProse
