namespace HartRuntime.Toml

/-- Drops exactly so many decimal digits, whose number is within bounds. -/
def bounded? (count low high : Nat) (cs : List Char) : Option (List Char) :=
  let ds := cs.take count
  let value := ds.foldl (fun value c => value * 10 + (c.toNat - 48)) 0
  if ds.length = count ∧ ds.all Char.isDigit ∧ low ≤ value ∧ value ≤ high then
    some (cs.drop count)
  else none

def expect? (c : Char) : List Char → Option (List Char)
  | d :: rest => if d = c then some rest else none
  | [] => none

/-- A date. Every month may have 31 days. -/
def date? (cs : List Char) : Option (List Char) := do
  let cs ← bounded? 4 0 9999 cs
  let cs ← bounded? 2 1 12 (← expect? '-' cs)
  bounded? 2 1 31 (← expect? '-' cs)

/-- A time of day; its seconds may be a leap second and have a fraction. -/
def clock? (cs : List Char) : Option (List Char) := do
  let cs ← bounded? 2 0 23 cs
  let cs ← bounded? 2 0 59 (← expect? ':' cs)
  let cs ← bounded? 2 0 60 (← expect? ':' cs)
  match cs with
  | '.' :: d :: rest => if d.isDigit then some (rest.dropWhile Char.isDigit) else none
  | '.' :: [] => none
  | cs => some cs

/-- The distance from universal time, if it is given. -/
def offset? : List Char → Option (List Char)
  | 'Z' :: rest | 'z' :: rest => some rest
  | '+' :: rest | '-' :: rest => do
    let cs ← bounded? 2 0 23 rest
    bounded? 2 0 59 (← expect? ':' cs)
  | cs => some cs

/-- Whether a text starts with so many digits and then the given character. -/
def opensWith (count : Nat) (c : Char) (cs : List Char) : Bool :=
  (cs.take count).length = count && (cs.take count).all Char.isDigit && cs[count]? = some c

/-- Drops a date, a time of day, or both. They are separated by a letter or by one space,
    and only both together may have an offset. -/
def time? (cs : List Char) : Option (List Char) :=
  if opensWith 4 '-' cs then do
    let rest ← date? cs
    match rest with
    | c :: tail =>
      if (c = 'T' || c = 't' || c = ' ') && opensWith 2 ':' tail then offset? (← clock? tail)
      else some rest
    | [] => some []
  else if opensWith 2 ':' cs then clock? cs
  else none

/-- Whether a text can only be a date or a time of day. -/
def isTime (cs : List Char) : Bool :=
  opensWith 4 '-' cs || opensWith 2 ':' cs

end HartRuntime.Toml
