import StatProse.Number.Fixed

/-!
# Values for display

A number is shown either plainly or with a fixed number of decimals. The two kinds differ
in their text and in what counts as present.
-/

namespace StatProse

inductive DisplayValue where
  | plain (value : Double)
  | fixed (value : Double) (places : Nat)
deriving DecidableEq

namespace DisplayValue

def value : DisplayValue → Double
  | plain v => v
  | fixed v _ => v

def places? : DisplayValue → Option Nat
  | plain _ => none
  | fixed _ places => some places

/-- A plain zero and a plain `nan` are absent; a fixed number is always present. -/
def isPresent : DisplayValue → Bool
  | plain v => !v.isZero && !v.isNan
  | fixed .. => true

def text : DisplayValue → List Char
  -- zero of either sign
  | plain v => if v.isZero then ['0'] else v.text
  | fixed v places => v.fixedText places

instance : ToString DisplayValue := ⟨fun v => String.ofList v.text⟩

end DisplayValue

end StatProse
