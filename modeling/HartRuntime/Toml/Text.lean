namespace HartRuntime.Toml

def isBlank (c : Char) : Bool :=
  c = ' ' || c = '\t'

/-- Drops spaces and tabs. -/
def skipBlanks (cs : List Char) : List Char :=
  cs.dropWhile isBlank

/-- A character that may stand in a comment; control characters other than the tab may
    stand nowhere. -/
def isPlain (c : Char) : Bool :=
  c = '\t' || (' ' ≤ c && c ≠ '\x7f')

/-- A line feed, alone or behind a carriage return. -/
def newline? : List Char → Option (List Char)
  | '\n' :: rest => some rest
  | '\r' :: '\n' :: rest => some rest
  | _ => none

/-- Drops blanks, line ends and, where allowed, comments. The flag says whether the text
    starts inside a comment. -/
def skipLines (comments inComment : Bool) : List Char → Option (List Char)
  | [] => some []
  | c :: rest =>
    if c = '\n' then skipLines comments false rest
    else if c = '\r' then
      if rest.head? = some '\n' then skipLines comments false rest else none
    else if inComment then
      if isPlain c then skipLines comments true rest else none
    else if isBlank c then skipLines comments false rest
    else if comments && c = '#' then skipLines comments true rest
    else some (c :: rest)

/-- The end of a line: blanks, perhaps a comment, and a line end or the end of all. -/
def lineEnd? (cs : List Char) : Option (List Char) :=
  let rest := match skipBlanks cs with
    | '#' :: comment => comment.dropWhile isPlain
    | other => other
  if rest.isEmpty then some [] else newline? rest

/-- The value of hexadecimal digits in either case. -/
def hexValue? (cs : List Char) : Option Nat :=
  cs.foldlM (fun value c =>
    if '0' ≤ c ∧ c ≤ '9' then some (16 * value + (c.toNat - 48))
    else if 'a' ≤ c ∧ c ≤ 'f' then some (16 * value + (c.toNat - 87))
    else if 'A' ≤ c ∧ c ≤ 'F' then some (16 * value + (c.toNat - 55))
    else none) 0

/-- The character of a code point, if it has one. -/
def ofCodePoint? (cs : List Char) : Option Char :=
  (hexValue? cs).bind fun code => if code.isValidChar then some (Char.ofNat code) else none

/-- The character that a letter behind a backslash stands for. -/
def escape? : Char → Option Char
  | 'b' => some '\x08'
  | 't' => some '\t'
  | 'n' => some '\n'
  | 'f' => some '\x0c'
  | 'r' => some '\r'
  | '"' => some '"'
  | '\\' => some '\\'
  | _ => none

/-- Puts a character before the text read after it. -/
def prepend (c : Char) (read : Option (List Char × List Char)) : Option (List Char × List Char) :=
  read.map fun (text, rest) => (c :: text, rest)

/-- The rest of a text in quotes, in which a backslash starts an escape. -/
def quoted? : List Char → Option (List Char × List Char)
  | [] => none
  | '"' :: rest => some ([], rest)
  | '\\' :: 'u' :: a :: b :: c :: d :: rest =>
    (ofCodePoint? [a, b, c, d]).bind fun e => prepend e (quoted? rest)
  | '\\' :: 'U' :: a :: b :: c :: d :: e :: f :: g :: h :: rest =>
    (ofCodePoint? [a, b, c, d, e, f, g, h]).bind fun e => prepend e (quoted? rest)
  | '\\' :: c :: rest => (escape? c).bind fun e => prepend e (quoted? rest)
  | c :: rest => if isPlain c && c ≠ '\\' then prepend c (quoted? rest) else none

/-- The rest of a text in apostrophes, which has no escapes. -/
def literal? : List Char → Option (List Char × List Char)
  | [] => none
  | c :: rest =>
    if c = '\'' then some ([], rest)
    else if isPlain c then prepend c (literal? rest)
    else none

/-- How many of the given character stand in front, five at most. -/
def runLength (c : Char) (cs : List Char) : Nat :=
  ((cs.take 5).takeWhile (· = c)).length

/-- The rest of a text over several lines between three quotes. Up to two quotes may stand
    directly before the end. While trimming, blanks and line ends are dropped: that is
    what a backslash at the end of a line asks for. -/
def quotedLines? (trimming : Bool) : List Char → Option (List Char × List Char)
  | [] => none
  | '\\' :: 'u' :: a :: b :: c :: d :: rest =>
    (ofCodePoint? [a, b, c, d]).bind fun e => prepend e (quotedLines? false rest)
  | '\\' :: 'U' :: a :: b :: c :: d :: e :: f :: g :: h :: rest =>
    (ofCodePoint? [a, b, c, d, e, f, g, h]).bind fun e => prepend e (quotedLines? false rest)
  | '\\' :: c :: rest =>
    if (newline? (skipBlanks (c :: rest))).isSome then quotedLines? true (c :: rest)
    else (escape? c).bind fun e => prepend e (quotedLines? false rest)
  | '\r' :: '\n' :: rest =>
    if trimming then quotedLines? true rest else prepend '\n' (quotedLines? false rest)
  | c :: rest =>
    if c = '\n' then
      if trimming then quotedLines? true rest else prepend c (quotedLines? false rest)
    else if trimming && isBlank c then quotedLines? true rest
    else if c = '"' then
      let run := runLength '"' (c :: rest)
      if 3 ≤ run then some (List.replicate (run - 3) '"', (c :: rest).drop run)
      else prepend c (quotedLines? false rest)
    else if isPlain c && c ≠ '\\' then prepend c (quotedLines? false rest)
    else none

/-- The rest of a text over several lines between three apostrophes. -/
def literalLines? : List Char → Option (List Char × List Char)
  | [] => none
  | '\r' :: '\n' :: rest => prepend '\n' (literalLines? rest)
  | c :: rest =>
    if c = '\'' then
      let run := runLength '\'' (c :: rest)
      if 3 ≤ run then some (List.replicate (run - 3) '\'', (c :: rest).drop run)
      else prepend c (literalLines? rest)
    else if c = '\n' || isPlain c then prepend c (literalLines? rest)
    else none

/-- Drops a line end that directly follows the opening of a text over several lines. -/
def skipFirstNewline (cs : List Char) : List Char :=
  (newline? cs).getD cs

/-- A text on one line, of either kind. -/
def lineText? : List Char → Option (List Char × List Char)
  | '"' :: rest => quoted? rest
  | '\'' :: rest => literal? rest
  | _ => none

/-- A text of any kind. -/
def text? : List Char → Option (List Char × List Char)
  | '"' :: '"' :: '"' :: rest => quotedLines? false (skipFirstNewline rest)
  | '\'' :: '\'' :: '\'' :: rest => literalLines? (skipFirstNewline rest)
  | cs => lineText? cs

end HartRuntime.Toml
