import Mathlib.Data.List.Induction
import HartRuntime.Trap.Table

namespace HartRuntime.Trap

/-- Where a handler comes from: the entry that it is the standard one of, or the place of
    an update in a list of updates. -/
abbrev Place := Entry ⊕ Nat

/-- The handler of an entry after a list of updates, and where it comes from: the last
    update for the entry, if there is any. -/
def Table.Chosen {Handler : Type} (table : Table Handler) (routes : List (Entry × Handler))
    (entry : Entry) (handler : Handler) : Place → Prop
  | .inl standard =>
    standard = entry ∧ handler = table entry ∧ ∀ route ∈ routes, route.1 ≠ entry
  | .inr i =>
    routes[i]? = some (entry, handler) ∧
      ∀ j route, i < j → routes[j]? = some route → route.1 ≠ entry

/-- Where the handler of an entry comes from. -/
def Table.place {Handler : Type} (routes : List (Entry × Handler)) : Table Place :=
  Table.routeAll Sum.inl (routes.mapIdx fun i route => (route.1, .inr i))

end HartRuntime.Trap
