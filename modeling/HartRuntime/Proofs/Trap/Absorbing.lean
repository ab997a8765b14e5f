import HartRuntime.Machine.Handler
import HartRuntime.Proofs.Trap.Watched

namespace HartRuntime.Trap

variable {Context World Tag : Type}

/-- A trap, nested or not, has ended in a halt. -/
def Sight.Halts (sight : Sight Tag) : Prop :=
  sight.mark = .took (some .halt)

/-- The dispatcher is halted, no handler begins, and no trap is returned from. -/
def Sight.Quiet (sight : Sight Tag) : Prop :=
  sight.state = some .halted ∧ (∀ tag, sight.mark ≠ .entered tag) ∧
    sight.mark ≠ .took (some .resume)

/-- A handler returns from its trap although the dispatcher has halted meanwhile. -/
def Sight.Overrides (sight : Sight Tag) : Prop :=
  sight.mark = .ending .resume ∧ sight.state = some .halted

/-- Once a trap has ended in a halt, nothing else is seen any more. -/
def Absorbing (run : List (Sight Tag)) : Prop :=
  (∀ sight ∈ run, sight.Halts → sight.state = some .halted) ∧
    run.Pairwise fun earlier later => earlier.Halts → later.Quiet

/-- The same of a run that starts in a given state. -/
def AbsorbingFrom (state : Option State) (run : List (Sight Tag)) : Prop :=
  Absorbing run ∧ (state = some .halted → ∀ sight ∈ run, sight.Quiet)

theorem absorbingFrom_singleton {state : Option State} {sight : Sight Tag} :
    AbsorbingFrom state [sight] ↔
      (sight.Halts → sight.state = some .halted) ∧ (state = some .halted → sight.Quiet) := by
  simp [AbsorbingFrom, Absorbing]

/-- A run can be cut behind any moment that does not report a halt out of nowhere. -/
theorem absorbingFrom_append_cons {state : Option State} {before after : List (Sight Tag)}
    {last : Sight Tag} (hlast : last.state = some .halted → state = some .halted ∨ last.Halts) :
    AbsorbingFrom state (before ++ last :: after) ↔
      AbsorbingFrom state (before ++ [last]) ∧ AbsorbingFrom last.state after := by
  have hcut : before ++ last :: after = (before ++ [last]) ++ after := by simp
  rw [hcut]
  constructor
  · rintro ⟨⟨hstates, hpairs⟩, hquiet⟩
    obtain ⟨hfirst, hsecond, hacross⟩ := List.pairwise_append.mp hpairs
    refine ⟨⟨⟨fun sight h => hstates sight (List.mem_append_left _ h), hfirst⟩, ?_⟩,
      ⟨fun sight h => hstates sight (List.mem_append_right _ h), hsecond⟩, ?_⟩
    · exact fun hstate sight h => hquiet hstate sight (List.mem_append_left _ h)
    · intro hhalted sight h
      rcases hlast hhalted with hstate | hhalts
      · exact hquiet hstate sight (List.mem_append_right _ h)
      · exact hacross last (by simp) sight h hhalts
  · rintro ⟨⟨⟨hstates, hfirst⟩, hquiet⟩, ⟨hstates', hsecond⟩, hquiet'⟩
    -- Whatever halts in front of the cut is still halted at it.
    have hend : (∃ sight ∈ before ++ [last], sight.Halts) → last.state = some .halted := by
      rintro ⟨sight, hsight, hhalts⟩
      rcases List.mem_append.mp hsight with hbefore | hself
      · exact ((List.pairwise_append.mp hfirst).2.2 sight hbefore last (by simp) hhalts).1
      · rw [List.mem_singleton] at hself
        subst hself
        exact hstates sight hsight hhalts
    refine ⟨⟨?_, List.pairwise_append.mpr ⟨hfirst, hsecond, ?_⟩⟩, ?_⟩
    · intro sight hsight
      rcases List.mem_append.mp hsight with h | h
      · exact hstates sight h
      · exact hstates' sight h
    · exact fun sight hsight later hlater hhalts => hquiet' (hend ⟨sight, hsight, hhalts⟩) later hlater
    · intro hstate sight hsight
      rcases List.mem_append.mp hsight with h | h
      · exact hquiet hstate sight h
      · exact hquiet' (hquiet hstate last (by simp)).1 sight h

/-- A moment between two actions of a handler adds nothing. -/
theorem absorbingFrom_cons {state : Option State} {mark : Mark Tag} {rest : List (Sight Tag)}
    (hentered : ∀ tag, mark ≠ .entered tag) (htook : ∀ outcome, mark ≠ .took outcome) :
    AbsorbingFrom state (⟨mark, state⟩ :: rest) ↔ AbsorbingFrom state rest := by
  have hcut : AbsorbingFrom state ([] ++ ⟨mark, state⟩ :: rest) ↔
      AbsorbingFrom state ([] ++ [⟨mark, state⟩]) ∧ AbsorbingFrom state rest :=
    absorbingFrom_append_cons .inl
  rw [List.nil_append, List.nil_append, absorbingFrom_singleton] at hcut
  rw [hcut]
  exact and_iff_right ⟨fun h => (htook _ h).elim, fun h => ⟨h, hentered, htook _⟩⟩

/-- The halt lasts through a run exactly when no handler in it overrides it. -/
def Lasts (state : Option State) (run : List (Sight Tag)) : Prop :=
  AbsorbingFrom state run ↔ ∀ sight ∈ run, ¬ sight.Overrides

theorem Lasts.cons {state : Option State} {mark : Mark Tag} {rest : List (Sight Tag)}
    (hlasts : Lasts state rest) (hentered : ∀ tag, mark ≠ .entered tag)
    (htook : ∀ outcome, mark ≠ .took outcome) (hending : mark ≠ .ending .resume) :
    Lasts state (⟨mark, state⟩ :: rest) := by
  have hself : ¬ Sight.Overrides ⟨mark, state⟩ := fun h => hending h.1
  unfold Lasts at hlasts ⊢
  rw [absorbingFrom_cons hentered htook, hlasts, List.forall_mem_cons]
  exact (and_iff_right hself).symm

theorem Lasts.append {state : Option State} {before after : List (Sight Tag)} {last : Sight Tag}
    (hbefore : Lasts state (before ++ [last])) (hafter : Lasts last.state after)
    (hlast : last.state = some .halted → state = some .halted ∨ last.Halts) :
    Lasts state (before ++ last :: after) := by
  have hcut : before ++ last :: after = (before ++ [last]) ++ after := by simp
  unfold Lasts at hbefore hafter ⊢
  rw [absorbingFrom_append_cons hlast, hbefore, hafter, hcut]
  exact List.forall_mem_append.symm

/-- What is seen of a nested trap: it leaves the dispatcher halted only if it was halted
    or the trap ends in a halt, and the halt lasts unless a handler overrides it. -/
def Nested.Shows (watched : Nested Context (Watched Tag World)) : Prop :=
  ∀ entry context state w,
    ((watched entry context state w).2.1 = some .halted →
      state = some .halted ∨ (watched entry context state w).1 = some .halt) ∧
    ∃ new, (watched entry context state w).2.2.sights = w.sights ++ new ∧
      Lasts state
        (new ++ [⟨.took (watched entry context state w).1, (watched entry context state w).2.1⟩])

/-- The halt lasts through a routine, and through the end of the trap that it handles,
    unless a handler overrides it. -/
theorem Routine.lasts_watched {watched : Nested Context (Watched Tag World)}
    (hshows : watched.Shows) (routine : Routine Context World) (room : Nat) (state : Option State)
    (w : Watched Tag World) :
    ∃ new, (routine.watched.run room watched state w).2.sights = w.sights ++ new ∧
      Lasts state (new ++ [⟨.took (some (routine.watched.run room watched state w).1),
        some (.after (routine.watched.run room watched state w).1)⟩]) := by
  induction routine generalizing state w with
  | done outcome =>
    refine ⟨[⟨.ending outcome, state⟩], rfl, ?_⟩
    show AbsorbingFrom state [⟨.ending outcome, state⟩, ⟨.took (some outcome), some (.after outcome)⟩] ↔ _
    rw [absorbingFrom_cons (by simp) (by simp), absorbingFrom_singleton]
    cases outcome <;>
      simp [Routine.watched, Routine.run, Sight.Halts, Sight.Quiet, Sight.Overrides, State.after]
  | look next ih =>
    obtain ⟨new, hnew, hlasts⟩ := ih ⟨state, room, w.world⟩ state (w.see .working state)
    refine ⟨⟨.working, state⟩ :: new, ?_, ?_⟩
    · exact hnew.trans (by simp [Watched.see])
    · exact hlasts.cons (by simp) (by simp) (by simp)
  | change f next ih =>
    obtain ⟨new, hnew, hlasts⟩ := ih state { w.see .working state with world := f w.world }
    refine ⟨⟨.working, state⟩ :: new, ?_, ?_⟩
    · exact hnew.trans (by simp [Watched.see])
    · exact hlasts.cons (by simp) (by simp) (by simp)
  | trap entry context next ih =>
    -- The run is cut where the nested trap ends, and goes on from the state that it left.
    obtain ⟨hhalted, inner, hinner, hfirst⟩ :=
      hshows entry context state (w.see (.taking entry) state)
    simp only [Routine.watched, run_note, run_trap]
    generalize watched entry context state (w.see (.taking entry) state) = result at *
    obtain ⟨new, hnew, hsecond⟩ := ih result.1 result.2.1 (result.2.2.see (.took result.1) result.2.1)
    refine ⟨⟨.taking entry, state⟩ :: (inner ++ ⟨.took result.1, result.2.1⟩ :: new), ?_, ?_⟩
    · rw [hnew]
      simp [Watched.see, hinner]
    · rw [List.cons_append, List.append_assoc, List.cons_append]
      apply Lasts.cons _ (by simp) (by simp) (by simp)
      apply hfirst.append hsecond
      intro h
      exact (hhalted h).imp_right fun houtcome => congrArg Mark.took houtcome

/-- A trap that found no handler to run: the state stays, and so does a halt. -/
theorem lasts_took {state state' : Option State} {outcome : Option Outcome}
    (hhalts : outcome = some .halt → state' = some .halted)
    (hstays : state = some .halted → state' = some .halted ∧ outcome ≠ some .resume) :
    Lasts state [(⟨.took outcome, state'⟩ : Sight Tag)] := by
  rw [Lasts, absorbingFrom_singleton]
  simp only [Sight.Halts, Sight.Quiet, Sight.Overrides, Mark.took.injEq, List.mem_singleton,
    forall_eq, reduceCtorEq, false_and, not_false_eq_true, iff_true, ne_eq, implies_true, true_and]
  exact ⟨hhalts, hstays⟩

theorem Lasts.entered {state : State} {tag : Tag} {rest : List (Sight Tag)}
    (hrest : Lasts (some .handling) rest) (hstate : state ≠ .halted) :
    Lasts (some state) (⟨.entered tag, some .handling⟩ :: rest) := by
  have hself : Lasts (some state) ([] ++ [(⟨.entered tag, some .handling⟩ : Sight Tag)]) := by
    rw [Lasts, List.nil_append, absorbingFrom_singleton]
    simp [Sight.Halts, Sight.Overrides, hstate]
  exact hself.append hrest (by simp)

theorem dispatch_lasts {tag : Entry → Tag} {table : Table (Handler Context World)} {room : Nat}
    (hshows : (nestedIn (table.watched tag) room).Shows) (entry : Entry) (context : Context)
    (state : State) (w : Watched Tag World) :
    let seen := dispatch (table.watched tag) room entry context state w
    ∃ new, seen.world.sights = w.sights ++ new ∧
      Lasts (some state) (new ++ [⟨.took (some seen.outcome), some seen.state⟩]) := by
  by_cases hstate : state = .halted
  · rw [hstate, dispatch_of_halted]
    exact ⟨[], by simp, lasts_took (by simp) (by simp)⟩
  · rw [dispatch_of_ne_halted _ _ _ _ hstate]
    obtain ⟨new, hnew, hlasts⟩ := (table entry context).lasts_watched hshows room (some .handling)
      (w.see (.entered (tag entry)) (some .handling))
    refine ⟨⟨.entered (tag entry), some .handling⟩ :: new, ?_, hlasts.entered hstate⟩
    exact hnew.trans (by simp [Watched.see])

theorem shows_nestedIn (tag : Entry → Tag) (table : Table (Handler Context World)) (room : Nat) :
    (nestedIn (table.watched tag) room).Shows := by
  induction room with
  | zero =>
    intro entry context state w
    exact ⟨.inl, [], (List.append_nil _).symm, lasts_took (fun h => nomatch h) fun h => ⟨h, by rintro ⟨⟩⟩⟩
  | succ room ih =>
    intro entry context state w
    cases state with
    | none =>
      exact ⟨.inl, [], (List.append_nil _).symm, lasts_took (fun h => nomatch h) fun h => nomatch h⟩
    | some state =>
      refine ⟨fun hhalted => .inr ?_, dispatch_lasts ih entry context state w⟩
      have hstate := Option.some.inj hhalted
      rw [dispatch_state, State.after_eq_halted] at hstate
      exact congrArg some hstate

/-- All that is seen of a sequence of traps. The end of each trap is seen by its caller. -/
def sights (takens : List (Taken (Watched Tag World))) : List (Sight Tag) :=
  takens.flatMap fun taken => taken.left.sights ++ [⟨.took (some taken.outcome), some taken.state⟩]

theorem lasts_sights (tag : Entry → Tag) (table : Table (Handler Context World)) (state : State)
    (room : Nat) (arrivals : List (Arrival Context World)) (w : Watched Tag World) :
    Lasts (some state) (sights
      (Dispatcher.takeAll ⟨table.watched tag, state⟩ room w (arrivals.map Arrival.watched))) := by
  induction arrivals generalizing state w with
  | nil => simp [Dispatcher.takeAll, sights, Lasts, AbsorbingFrom, Absorbing]
  | cons arrival rest ih =>
    rw [List.map_cons, Dispatcher.takeAll_cons]
    obtain ⟨new, hnew, hlasts⟩ := dispatch_lasts (shows_nestedIn tag table room) arrival.entry
      arrival.context state ⟨arrival.since w.world, []⟩
    have hstate := dispatch_state (table.watched tag) room arrival.entry arrival.context state
      ⟨arrival.since w.world, []⟩
    simp only [sights, List.flatMap_cons, Arrival.watched, hnew, List.nil_append, List.append_assoc,
      List.singleton_append]
    apply hlasts.append (ih _ _)
    intro hhalted
    rw [Option.some.injEq, hstate, State.after_eq_halted] at hhalted
    exact .inr (congrArg (Mark.took ∘ some) hhalted)

/-- A halt, nested or not, lasts to the end of a run exactly when no handler in it returns
    from its trap while the dispatcher is halted. What is seen is seen of the run itself:
    without a watcher every trap ends the same way and leaves the same world. -/
theorem absorbing_iff (tag : Entry → Tag) (table : Table (Handler Context World)) (room : Nat)
    (world : World) (arrivals : List (Arrival Context World)) :
    let seen := (Dispatcher.ofTable (table.watched tag)).takeAll room ⟨world, []⟩
      (arrivals.map Arrival.watched)
    seen.map Taken.unwatched = (Dispatcher.ofTable table).takeAll room world arrivals ∧
      (Absorbing (sights seen) ↔ ∀ sight ∈ sights seen, ¬ sight.Overrides) := by
  refine ⟨map_unwatched_takeAll tag table .idle room arrivals ⟨world, []⟩, ?_⟩
  have hlasts := lasts_sights tag table .idle room arrivals ⟨world, []⟩
  have hidle : some State.idle ≠ some .halted := by simp
  exact ⟨fun h => hlasts.mp ⟨h, fun hstate => (hidle hstate).elim⟩, fun h => (hlasts.mpr h).1⟩

/-- A handler that returns after a nested non-maskable interrupt has halted the dispatcher
    makes it idle again: the call of the environment that comes next is handled. -/
theorem not_absorbing_nesting :
    ¬ Absorbing (sights ((Dispatcher.ofTable
        ((Table.route Machine.standard .software (Machine.nesting .nmi .resume)).watched id)).takeAll 1
      (⟨Machine.start (#v[] : Vector Device 0), []⟩ : Watched Entry (Machine 0))
      ([⟨id, .software, none⟩, ⟨fun m => { m with cause := 11 }, .exception, none⟩].map
        Arrival.watched))) := by
  have hseen : sights ((Dispatcher.ofTable
        ((Table.route Machine.standard .software (Machine.nesting .nmi .resume)).watched id)).takeAll 1
      (⟨Machine.start (#v[] : Vector Device 0), []⟩ : Watched Entry (Machine 0))
      ([⟨id, .software, none⟩, ⟨fun m => { m with cause := 11 }, .exception, none⟩].map
        Arrival.watched)) =
      [⟨.entered .software, some .handling⟩, ⟨.working, some .handling⟩, ⟨.working, some .handling⟩,
        ⟨.taking .nmi, some .handling⟩, ⟨.entered .nmi, some .handling⟩, ⟨.working, some .handling⟩,
        ⟨.working, some .handling⟩, ⟨.ending .halt, some .handling⟩,
        ⟨.took (some .halt), some .halted⟩, ⟨.working, some .halted⟩, ⟨.working, some .halted⟩,
        ⟨.ending .resume, some .halted⟩, ⟨.took (some .resume), some .idle⟩,
        ⟨.entered .exception, some .handling⟩, ⟨.working, some .handling⟩,
        ⟨.working, some .handling⟩, ⟨.ending .resume, some .handling⟩,
        ⟨.took (some .resume), some .idle⟩] := by
    decide
  rw [hseen]
  simp [Absorbing, Sight.Quiet, Sight.Halts]

end HartRuntime.Trap
