import BenchLog.Key

/-! Values by key, in ascending order of the keys.
A map is a list of entries; putting a value keeps the order, and looking one up needs no order.
-/

namespace BenchLog

/-- Values by key. -/
abbrev KeyMap (α : Type) : Type :=
  List (Key × α)

namespace KeyMap

variable {α : Type}

def get? (k : Key) : KeyMap α → Option α
  | [] => none
  | (l, a) :: entries => if l = k then some a else get? k entries

/-- The map with a value under a key, in place of the one that was there. -/
def put (k : Key) (a : α) : KeyMap α → KeyMap α
  | [] => [(k, a)]
  | (l, b) :: entries =>
      match k.compare l with
      | .lt => (k, a) :: (l, b) :: entries
      | .eq => (k, a) :: entries
      | .gt => (l, b) :: put k a entries

def keys (m : KeyMap α) : List Key :=
  m.map Prod.fst

/-- The values of a map in the order of their keys. -/
def values (m : KeyMap α) : List α :=
  m.map Prod.snd

def mapValues {β : Type} (f : α → β) (m : KeyMap α) : KeyMap β :=
  m.map fun (k, a) => (k, f a)

@[simp]
theorem keys_mapValues {β : Type} (f : α → β) (m : KeyMap α)
    : (m.mapValues f).keys = m.keys := by
  simp [keys, mapValues, Function.comp_def]

theorem get?_mapValues {β : Type} (f : α → β) (m : KeyMap α) (k : Key)
    : (m.mapValues f).get? k = (m.get? k).map f := by
  induction m with
  | nil => rfl
  | cons entry entries ih =>
      simp only [mapValues, List.map_cons, get?]
      split
      · rfl
      · exact ih

end KeyMap

end BenchLog
