namespace HartRuntime.Toml

/-- How a table came about: written as a value, opened by a header, implied by a longer
    header, or implied by a dotted key. -/
inductive Origin where
  | inline
  | header
  | implied
  | dotted
  deriving DecidableEq

/-- Whether a path whose missing tables come about in one way leads into a table that came
    about in another. Headers lead into all but values, dotted keys only into what was
    implied, and keys inside a value into every table of that value. -/
def Origin.leadsInto (made origin : Origin) : Bool :=
  match made with
  | .inline => true
  | .dotted => origin = .implied || origin = .dotted
  | .header | .implied => origin != .inline

/-- A value of a document. Floats and times carry nothing, since nothing reads them. An
    array grows if headers opened its elements. -/
inductive Value where
  | integer (value : Int)
  | float
  | boolean (value : Bool)
  | text (value : String)
  | time
  | array (grows : Bool) (elements : List Value)
  | table (origin : Origin) (entries : List (String × Value))

/-- The entries of a table in the order in which their keys first appeared. -/
abbrev Entries := List (String × Value)

/-- Changes the value of a key; without one the change starts from nothing. A change
    that yields nothing is refused. -/
def Entries.alter (entries : Entries) (key : String) (f : Option Value → Option Value) :
    Option Entries :=
  match entries with
  | [] => (f none).map fun value => [(key, value)]
  | (k, value) :: rest =>
    if k = key then (f (some value)).map fun value => (k, value) :: rest
    else (Entries.alter rest key f).map ((k, value) :: ·)

/-- Changes the table that a path leads to. Tables missing on the way are made, and an
    array that grows leads into its last element. -/
def Entries.enter (made : Origin) (path : List String) (f : Origin → Entries → Option Entries)
    (origin : Origin) (entries : Entries) : Option Entries :=
  match path with
  | [] => f origin entries
  | key :: path =>
    entries.alter key fun
      | none => (Entries.enter made path f made []).map (.table made)
      | some (.table origin entries) =>
        if made.leadsInto origin then (Entries.enter made path f origin entries).map (.table origin)
        else none
      | some (.array true elements) =>
        match elements.getLast? with
        | some (.table origin entries) =>
          (Entries.enter made path f origin entries).map fun entries =>
            .array true (elements.dropLast ++ [.table origin entries])
        | _ => none
      | _ => none

/-- Adds an entry under a key that is not taken. A dotted key adds only to a table that
    came about as those it makes do. -/
def Entries.define (made : Origin) (entries : Entries) (path : List String) (key : String)
    (value : Value) : Option Entries :=
  Entries.enter made path (fun origin entries =>
    if path ≠ [] ∧ origin ≠ made then none
    else entries.alter key fun
      | none => some value
      | some _ => none) made entries

/-- Opens a table by a header. It may have been implied by a header before, but not have
    been opened. -/
def Entries.openTable (entries : Entries) (path : List String) (key : String) : Option Entries :=
  Entries.enter .implied path (fun _ entries => entries.alter key fun
    | none => some (.table .header [])
    | some (.table .implied entries) => some (.table .header entries)
    | _ => none) .header entries

/-- Opens one more element of an array by a header. -/
def Entries.openElement (entries : Entries) (path : List String) (key : String) : Option Entries :=
  Entries.enter .implied path (fun _ entries => entries.alter key fun
    | none => some (.array true [.table .header []])
    | some (.array true elements) => some (.array true (elements ++ [.table .header []]))
    | _ => none) .header entries

end HartRuntime.Toml
