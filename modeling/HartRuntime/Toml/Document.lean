import HartRuntime.Toml.Number
import HartRuntime.Toml.Text
import HartRuntime.Toml.Time

namespace HartRuntime.Toml

/-- How deep values may nest, and how many parts a key may have. -/
def depthLimit : Nat := 127

def isBare (c : Char) : Bool :=
  c.isAlphanum || c = '_' || c = '-'

/-- One part of a key: letters, digits, `_` and `-`, or a text on one line. -/
def keyPart? (cs : List Char) : Option (String × List Char) :=
  match cs.takeWhile isBare with
  | [] => (lineText? cs).map fun (text, rest) => (String.ofList text, rest)
  | bare => some (String.ofList bare, cs.dropWhile isBare)

/-- The parts of a key, joined by dots with blanks around them. No more parts are read
    than the fuel allows. -/
def keyParts? : Nat → List Char → Option (List String × List Char)
  | 0, _ => none
  | fuel + 1, cs => do
    let (part, cs) ← keyPart? (skipBlanks cs)
    match skipBlanks cs with
    | '.' :: rest => do
      let (parts, rest) ← keyParts? fuel rest
      some (part :: parts, rest)
    | rest => some ([part], rest)

/-- A key: the path to the table it belongs in, and its last part. -/
def key? (cs : List Char) : Option (List String × String × List Char) := do
  let (parts, rest) ← keyParts? depthLimit cs
  let last ← parts.getLast?
  some (parts.dropLast, last, rest)

mutual

/-- A value. Each level of nesting and each element takes fuel; `depth` counts how many
    more levels there may be. -/
def value? : (fuel depth : Nat) → List Char → Option (Value × List Char)
  | 0, _, _ => none
  | fuel + 1, depth, cs =>
    match cs with
    | '[' :: rest =>
      if depth = 0 then none
      else (elements? fuel (depth - 1) rest).map fun (elements, rest) =>
        (.array false elements, rest)
    | '{' :: rest =>
      if depth = 0 then none
      else
        match skipBlanks rest with
        | '}' :: rest => some (.table .inline [], rest)
        | rest => (fields? fuel (depth - 1) [] rest).map fun (entries, rest) =>
          (.table .inline entries, rest)
    | 't' :: 'r' :: 'u' :: 'e' :: rest => some (.boolean true, rest)
    | 'f' :: 'a' :: 'l' :: 's' :: 'e' :: rest => some (.boolean false, rest)
    | '"' :: _ | '\'' :: _ =>
      (text? cs).map fun (text, rest) => (.text (String.ofList text), rest)
    | _ => if isTime cs then (time? cs).map (.time, ·) else number? cs

/-- The elements of an array up to its end. They are separated by commas; one may follow
    the last. Lines may end and comments stand anywhere between them. -/
def elements? : (fuel depth : Nat) → List Char → Option (List Value × List Char)
  | 0, _, _ => none
  | fuel + 1, depth, cs => do
    match ← skipLines true false cs with
    | ']' :: rest => some ([], rest)
    | cs =>
      let (value, cs) ← value? fuel depth cs
      match ← skipLines true false cs with
      | ',' :: rest => do
        let (values, rest) ← elements? fuel depth rest
        some (value :: values, rest)
      | ']' :: rest => some ([value], rest)
      | _ => none

/-- The entries of a table on one line up to its end, added to those read so far. No
    comma may follow the last. -/
def fields? : (fuel depth : Nat) → Entries → List Char → Option (Entries × List Char)
  | 0, _, _, _ => none
  | fuel + 1, depth, entries, cs => do
    let (path, key, cs) ← key? cs
    let cs ← (if cs.head? = some '=' then some cs.tail else none)
    let (value, cs) ← value? fuel depth (skipBlanks cs)
    let entries ← entries.define .inline path key value
    match skipBlanks cs with
    | ',' :: rest => fields? fuel depth entries rest
    | '}' :: rest => some (entries, rest)
    | _ => none

end

/-- A document so far: its entries, and the path of the header that is open. -/
structure Document where
  entries : Entries
  path : List String

/-- The value of an entry, given enough fuel for any text. -/
def entryValue? (cs : List Char) : Option (Value × List Char) :=
  value? (2 * cs.length + 2) depthLimit cs

/-- A line with a header of a table, from behind its first bracket. -/
def Document.tableLine? (document : Document) (cs : List Char) : Option (Document × List Char) := do
  let (path, key, cs) ← key? cs
  match cs with
  | ']' :: rest =>
    let rest ← lineEnd? rest
    let entries ← document.entries.openTable path key
    some (⟨entries, path ++ [key]⟩, rest)
  | _ => none

/-- A line with a header of an array's element, from behind its two brackets. -/
def Document.elementLine? (document : Document) (cs : List Char) : Option (Document × List Char) := do
  let (path, key, cs) ← key? cs
  match cs with
  | ']' :: ']' :: rest =>
    let rest ← lineEnd? rest
    let entries ← document.entries.openElement path key
    some (⟨entries, path ++ [key]⟩, rest)
  | _ => none

/-- A line with an entry, which goes into the table of the open header. -/
def Document.entryLine? (document : Document) (cs : List Char) : Option (Document × List Char) := do
  let (path, key, cs) ← key? cs
  match cs with
  | '=' :: rest =>
    let (value, rest) ← entryValue? (skipBlanks rest)
    let rest ← lineEnd? rest
    let entries ← Entries.enter .implied document.path
      (fun _ entries => entries.define .dotted path key value) .header document.entries
    some ({ document with entries := entries }, rest)
  | _ => none

/-- The lines of a document. Each takes fuel. -/
def Document.lines? : Nat → Document → List Char → Option Document
  | 0, _, _ => none
  | fuel + 1, document, cs => do
    match skipBlanks cs with
    | [] => some document
    | '[' :: '[' :: rest =>
      let (document, rest) ← document.elementLine? rest
      Document.lines? fuel document rest
    | '[' :: rest =>
      let (document, rest) ← document.tableLine? rest
      Document.lines? fuel document rest
    | cs =>
      if cs.head? = some '#' ∨ (newline? cs).isSome then Document.lines? fuel document (← lineEnd? cs)
      else
        let (document, rest) ← document.entryLine? cs
        Document.lines? fuel document rest

/-- The entries of a document; none if the text cannot be read as one. A byte order mark may stand
    in front. Depth is limited, and the days of a month are not counted. -/
def parse? (text : String) : Option Entries :=
  let cs := match text.toList with
    | '\ufeff' :: rest => rest
    | cs => cs
  (Document.lines? (cs.length + 1) ⟨[], []⟩ cs).map Document.entries

end HartRuntime.Toml
