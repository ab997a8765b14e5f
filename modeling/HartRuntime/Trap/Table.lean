namespace HartRuntime.Trap

/-- The places at which the hardware enters the runtime. -/
inductive Entry where
  | nmi
  | exception
  | software
  | timer
  | external
  deriving DecidableEq

/-- What becomes of the interrupted program: it goes on, or the hart stops for good. -/
inductive Outcome where
  | resume
  | halt
  deriving DecidableEq

/-- One handler for each entry. -/
abbrev Table (Handler : Type) := Entry → Handler

/-- Gives an entry another handler. -/
def Table.route {Handler : Type} (table : Table Handler) (entry : Entry) (handler : Handler) :
    Table Handler :=
  fun e => if e = entry then handler else table e

/-- Gives entries other handlers, one after the other, so that the last one counts. -/
def Table.routeAll {Handler : Type} (table : Table Handler) (routes : List (Entry × Handler)) :
    Table Handler :=
  routes.foldl (fun table route => table.route route.1 route.2) table

end HartRuntime.Trap
