import HartRuntime.Machine.Handler
import HartRuntime.Proofs.Trap.Routes
import HartRuntime.Proofs.Trap.Watched

namespace HartRuntime.Trap

variable {Context World Tag : Type}

/-- One handler ran, once, and found the dispatcher handling throughout. -/
def RanOnce (tag : Tag) (sights : List (Sight Tag)) : Prop :=
  ∃ rest, sights = ⟨.entered tag, some .handling⟩ :: rest ∧
    ∀ sight ∈ rest, sight.state = some .handling ∧ ∀ other, sight.mark ≠ .entered other

/-- A halted dispatcher answers every trap with a halt and touches nothing. -/
theorem takeAll_of_halted (table : Table (Handler Context World)) (room : Nat)
    (arrivals : List (Arrival Context World)) (world : World) :
    ∀ taken ∈ Dispatcher.takeAll ⟨table, .halted⟩ room world arrivals,
      taken.outcome = .halt ∧ taken.state = .halted ∧ taken.left = taken.found := by
  induction arrivals generalizing world with
  | nil => simp [Dispatcher.takeAll]
  | cons arrival rest ih =>
    rw [Dispatcher.takeAll_cons, dispatch_of_halted]
    exact List.forall_mem_cons.mpr ⟨⟨rfl, rfl, rfl⟩, ih _⟩

/-- What becomes of the trap at place `i` when that at place `first` is the first to halt. -/
structure Taken.Follows (table : Table (Handler Context World)) (tag : Entry → Tag)
    (room first i : Nat) (arrival : Arrival Context World) (taken : Taken (Watched Tag World)) :
    Prop where
  state : taken.state = .after taken.outcome
  ran : i ≤ first → RanOnce (tag arrival.entry) taken.left.sights ∧
    (taken.outcome, taken.left.world) =
      (table arrival.entry arrival.context).run room .refused (some .handling) taken.found.world
  refused : first < i → taken.left.world = taken.found.world ∧ taken.left.sights = []

theorem Taken.Follows.succ {table : Table (Handler Context World)} {tag : Entry → Tag}
    {room first i : Nat} {arrival : Arrival Context World} {taken : Taken (Watched Tag World)}
    (h : taken.Follows table tag room first i arrival) :
    taken.Follows table tag room (first + 1) (i + 1) arrival :=
  ⟨h.state, fun hi => h.ran (by omega), fun hi => h.refused (by omega)⟩

end HartRuntime.Trap
