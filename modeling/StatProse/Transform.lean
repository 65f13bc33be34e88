import StatProse.DisplayValue

/-!
# Transforms

Stat bounds are given in internal units. A transform names a conversion into what is
shown: an arithmetic step, and for some a fixed number of decimals. A list of transforms
is applied from left to right.
-/

namespace StatProse

inductive Transform where
  | thirtyPercent
  | sixtyPercent
  | decisecondsToSeconds
  | millisecondsToSeconds
  | millisecondsToSeconds0dp
  | millisecondsToSeconds1dp
  | millisecondsToSeconds2dp
  | perMinuteToPerSecond
  | perMinuteToPerSecond0dp
  | perMinuteToPerSecond1dp
  | perMinuteToPerSecond2dp
  | divideByOneHundred
  | divideByOneHundredAndNegate
  | divideByOneHundred2dp
  | negate
  | multiplicativeDamage
  | multiplicativePermyriadDamage
  | permyriadToPercent
  | oldLeechPercent
  | oldLeechPermyriad
  | divideByTwo0dp
  | divideBySix
  | divideByTen0dp
  | divideByTwelve
  | divideByFifteen0dp
  | divideByTwentyThenDouble0dp
  | timesTwenty
  /-- A name that is not in the catalogue. Its values pass unchanged. -/
  | unknown (name : String)
deriving DecidableEq, Repr

namespace Transform

def name : Transform → String
  | thirtyPercent => "30%_of_value"
  | sixtyPercent => "60%_of_value"
  | decisecondsToSeconds => "deciseconds_to_seconds"
  | millisecondsToSeconds => "milliseconds_to_seconds"
  | millisecondsToSeconds0dp => "milliseconds_to_seconds_0dp"
  | millisecondsToSeconds1dp => "milliseconds_to_seconds_1dp"
  | millisecondsToSeconds2dp => "milliseconds_to_seconds_2dp"
  | perMinuteToPerSecond => "per_minute_to_per_second"
  | perMinuteToPerSecond0dp => "per_minute_to_per_second_0dp"
  | perMinuteToPerSecond1dp => "per_minute_to_per_second_1dp"
  | perMinuteToPerSecond2dp => "per_minute_to_per_second_2dp"
  | divideByOneHundred => "divide_by_one_hundred"
  | divideByOneHundredAndNegate => "divide_by_one_hundred_and_negate"
  | divideByOneHundred2dp => "divide_by_one_hundred_2dp"
  | negate => "negate"
  | multiplicativeDamage => "multiplicative_damage_modifier"
  | multiplicativePermyriadDamage => "multiplicative_permyriad_damage_modifier"
  | permyriadToPercent => "permyriad_to_percent"
  | oldLeechPercent => "old_leech_percent"
  | oldLeechPermyriad => "old_leech_permyriad"
  | divideByTwo0dp => "divide_by_two_0dp"
  | divideBySix => "divide_by_six"
  | divideByTen0dp => "divide_by_ten_0dp"
  | divideByTwelve => "divide_by_twelve"
  | divideByFifteen0dp => "divide_by_fifteen_0dp"
  | divideByTwentyThenDouble0dp => "divide_by_twenty_then_double_0dp"
  | timesTwenty => "times_twenty"
  | unknown name => name

def catalogue : List Transform :=
  [thirtyPercent, sixtyPercent, decisecondsToSeconds, millisecondsToSeconds,
    millisecondsToSeconds0dp, millisecondsToSeconds1dp, millisecondsToSeconds2dp,
    perMinuteToPerSecond, perMinuteToPerSecond0dp, perMinuteToPerSecond1dp,
    perMinuteToPerSecond2dp, divideByOneHundred, divideByOneHundredAndNegate,
    divideByOneHundred2dp, negate, multiplicativeDamage, multiplicativePermyriadDamage,
    permyriadToPercent, oldLeechPercent, oldLeechPermyriad, divideByTwo0dp, divideBySix,
    divideByTen0dp, divideByTwelve, divideByFifteen0dp, divideByTwentyThenDouble0dp,
    timesTwenty]

/-- The transform of that name; every name belongs to some transform. -/
def ofName (name : String) : Transform :=
  (catalogue.find? (·.name == name)).getD (unknown name)

def isKnown : Transform → Bool
  | unknown _ => false
  | _ => true

def convert (t : Transform) (v : Double) : Double :=
  match t with
  | thirtyPercent => v * 0.3
  | sixtyPercent => v * 0.6
  | decisecondsToSeconds => v / 10
  | millisecondsToSeconds | millisecondsToSeconds0dp | millisecondsToSeconds1dp
  | millisecondsToSeconds2dp => v / 1000
  | perMinuteToPerSecond | perMinuteToPerSecond0dp | perMinuteToPerSecond1dp
  | perMinuteToPerSecond2dp => v / 60
  | divideByOneHundred | divideByOneHundred2dp | permyriadToPercent => v / 100
  | divideByOneHundredAndNegate => -v / 100
  | negate => -v
  | multiplicativeDamage => v + 100
  | multiplicativePermyriadDamage => v / 100 + 100
  | oldLeechPercent => v / 5
  | oldLeechPermyriad => v / 50
  | divideByTwo0dp => (v / 2).floor
  | divideBySix => v / 6
  | divideByTen0dp => (v / 10).floor
  | divideByTwelve => v / 12
  | divideByFifteen0dp => (v / 15).floor
  | divideByTwentyThenDouble0dp => (v / 20).floor * 2
  | timesTwenty => v * 20
  | unknown _ => v

/-- The decimals that a transform fixes. The `0dp` divisions drop their remainder and
stay plain. -/
def decimals? : Transform → Option Nat
  | millisecondsToSeconds0dp | perMinuteToPerSecond0dp => some 0
  | millisecondsToSeconds1dp | perMinuteToPerSecond1dp => some 1
  | millisecondsToSeconds2dp | perMinuteToPerSecond2dp | divideByOneHundred2dp => some 2
  | _ => none

def apply (t : Transform) (input : DisplayValue) : DisplayValue :=
  match t with
  | unknown _ => input
  | t =>
    match t.decimals? with
    | some places => .fixed (t.convert input.value) places
    | none => .plain (t.convert input.value)

def applyAll (transforms : List Transform) (raw : Double) : DisplayValue :=
  transforms.foldl (fun v t => t.apply v) (.plain raw)

theorem mem_catalogue {t : Transform} (h : t.isKnown = true) : t ∈ catalogue := by
  cases t <;> simp_all [catalogue, isKnown]

theorem ofName_name {t : Transform} (h : t.isKnown = true) : ofName t.name = t := by
  have key : ∀ t ∈ catalogue, ofName t.name = t := by decide
  exact key t (mem_catalogue h)

theorem name_ofName (name : String) : (ofName name).name = name := by
  unfold ofName
  cases h : catalogue.find? (·.name == name) with
  | none => rfl
  | some t => simpa using List.find?_some h

end Transform

end StatProse
