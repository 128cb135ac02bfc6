import MqttLink.Settings.Toml.Dialect
/-!
# Blanks, comments, keys and strings of TOML

The readers take a piece off the front of a text and leave the rest, or fail.
-/

namespace MqttLink.Toml

/-! ## Blanks and ends of lines -/

/-- The blanks inside a line. -/
def isBlank (c : Char) : Bool := c == ' ' || c == '\t'

/-- The text behind its leading blanks. -/
def skipBlanks (cs : List Char) : List Char := cs.dropWhile isBlank

/-- Whether a character may stand in a comment or, unescaped, in a string: a tab,
or anything that is no control character. -/
def isPlain (c : Char) : Bool := c == '\t' || (' ' ≤ c && c != '\x7f')

/-- The text behind the end of a line. -/
def newline? (cs : List Char) : Option (List Char) :=
  match cs with
  | '\n' :: rest => some rest
  | '\r' :: '\n' :: rest => some rest
  | _ => none

/-- The text behind a comment, if there is one. -/
def skipComment (cs : List Char) : List Char :=
  match cs with
  | '#' :: rest => rest.dropWhile isPlain
  | _ => cs

/-- The next line, when nothing but blanks and a comment is left of this one. -/
def nextLine? (cs : List Char) : Option (List Char) :=
  match skipComment (skipBlanks cs) with
  | [] => some []
  | rest => newline? rest

/-- The text behind blanks, comments and ends of lines. -/
def skipLines : (fuel : Nat) → List Char → List Char
  | 0, cs => cs
  | fuel + 1, cs =>
    let rest := skipComment (skipBlanks cs)
    match newline? rest with
    | some rest => skipLines fuel rest
    | none => rest

/-! ## Strings -/

/-- The character with a code given by so many hexadecimal digits. -/
def scalar? (digits : List Char) : Option Char :=
  let value (c : Char) : Option Nat :=
    if '0' ≤ c ∧ c ≤ '9' then some (c.toNat - 48)
    else if 'a' ≤ c ∧ c ≤ 'f' then some (c.toNat - 87)
    else if 'A' ≤ c ∧ c ≤ 'F' then some (c.toNat - 55)
    else none
  match digits.mapM value with
  | none => none
  | some ns =>
    let code := ns.foldl (fun n d => n * 16 + d) 0
    if h : code.isValidChar then some (Char.ofNatAux code h) else none

/-- What a backslash and the next character stand for. -/
def escape? (d : Dialect) : Char → Option Char
  | 'e' => if d.moreEscapes then some '\x1b' else none
  | 'b' => some '\x08'
  | 't' => some '\t'
  | 'n' => some '\n'
  | 'f' => some '\x0c'
  | 'r' => some '\r'
  | '"' => some '"'
  | '\\' => some '\\'
  | _ => none

/-- The character with a code of so many hexadecimal digits, and the rest. -/
def coded? (width : Nat) (cs : List Char) : Option (Char × List Char) :=
  if cs.length < width then none else (scalar? (cs.take width)).map (·, cs.drop width)

/-- What stands behind a backslash, and the rest. -/
def escaped? (d : Dialect) (cs : List Char) : Option (Char × List Char) :=
  match cs with
  | 'x' :: rest => if d.moreEscapes then coded? 2 rest else none
  | 'u' :: rest => coded? 4 rest
  | 'U' :: rest => coded? 8 rest
  | c :: rest => (escape? d c).map (·, rest)
  | [] => none

/-- A string in double quotes whose opening quote has just been passed. -/
def basic? (d : Dialect) : (fuel : Nat) → (seen : List Char) → List Char →
    Option (String × List Char)
  | 0, _, _ => none
  | fuel + 1, seen, cs =>
    match cs with
    | [] => none
    | '"' :: rest => some (String.ofList seen.reverse, rest)
    | '\\' :: rest => do
      let (c, rest) ← escaped? d rest
      basic? d fuel (c :: seen) rest
    | c :: rest => if isPlain c then basic? d fuel (c :: seen) rest else none

/-- A string in single quotes whose opening quote has just been passed. -/
def literal? (cs : List Char) : Option (String × List Char) :=
  let isInside (c : Char) : Bool := isPlain c && c != '\''
  match cs.dropWhile isInside with
  | '\'' :: rest => some (String.ofList (cs.takeWhile isInside), rest)
  | _ => none

/-- How many quotes a text starts with, and the text behind them. A string of
several lines ends in three of them, before which two more may belong to it. -/
def closing? (quote : Char) (cs : List Char) : Option (Nat × List Char) :=
  let count := (cs.takeWhile (· == quote)).length
  if count < 3 then none else some (min count 5 - 3, cs.drop (min count 5))

/-- The end of a line in a string, last character first. -/
def lineEnd (d : Dialect) (cs : List Char) : List Char :=
  if d.keepsLineEnds && cs.head? == some '\r' then ['\n', '\r'] else ['\n']

/-- The text behind the end of line that may follow an opening delimiter. -/
def skipFirstNewline (cs : List Char) : List Char := (newline? cs).getD cs

/-- A string of several lines whose opening delimiter has just been passed. In
double quotes a backslash at the end of a line takes away all white space up to
the next text. -/
def multiline? (d : Dialect) (quote : Char) (escapes : Bool) :
    (fuel : Nat) → (trimming : Bool) → (seen : List Char) → List Char →
      Option (String × List Char)
  | 0, _, _, _ => none
  | fuel + 1, trimming, seen, cs =>
    match newline? cs with
    | some rest =>
      multiline? d quote escapes fuel trimming (if trimming then seen else lineEnd d cs ++ seen)
        rest
    | none =>
      match cs with
      | [] => none
      | c :: rest =>
        if trimming && isBlank c then multiline? d quote escapes fuel true seen rest
        else if c == quote then
          match closing? quote cs with
          | some (extra, rest) =>
            some (String.ofList (List.replicate extra quote ++ seen).reverse, rest)
          | none => multiline? d quote escapes fuel false (c :: seen) rest
        else if escapes && c == '\\' then
          match newline? (skipBlanks rest) with
          | some rest => multiline? d quote escapes fuel true seen rest
          | none => do
            let (c, rest) ← escaped? d rest
            multiline? d quote escapes fuel false (c :: seen) rest
        else if isPlain c then multiline? d quote escapes fuel false (c :: seen) rest
        else none

/-- A string of any of the four forms. -/
def string? (d : Dialect) (cs : List Char) : Option (String × List Char) :=
  let fuel := cs.length + 1
  match cs with
  | '"' :: '"' :: '"' :: rest => multiline? d '"' true fuel false [] (skipFirstNewline rest)
  | '\'' :: '\'' :: '\'' :: rest => multiline? d '\'' false fuel false [] (skipFirstNewline rest)
  | '"' :: rest => basic? d fuel [] rest
  | '\'' :: rest => literal? rest
  | _ => none

/-! ## Keys -/

/-- The characters of a key without quotes. -/
def isBareKey (c : Char) : Bool :=
  ('a' ≤ c && c ≤ 'z') || ('A' ≤ c && c ≤ 'Z') || ('0' ≤ c && c ≤ '9') || c == '_' || c == '-'

/-- One part of a key. -/
def simpleKey? (d : Dialect) (cs : List Char) : Option (String × List Char) :=
  match cs with
  | '"' :: rest => basic? d (cs.length + 1) [] rest
  | '\'' :: rest => literal? rest
  | _ =>
    let name := cs.takeWhile isBareKey
    if name.isEmpty then none else some (String.ofList name, cs.dropWhile isBareKey)

/-- A key of at most `left` parts with points between them. Blanks are free around
each part. -/
def keyParts? (d : Dialect) : (left : Nat) → List Char → Option (List String × List Char)
  | 0, _ => none
  | left + 1, cs => do
    let (name, rest) ← simpleKey? d (skipBlanks cs)
    match skipBlanks rest with
    | '.' :: rest => do
      let (more, rest) ← keyParts? d left rest
      return (name :: more, rest)
    | rest => return ([name], rest)

/-- A key, and what follows it. -/
def key? (d : Dialect) (cs : List Char) : Option (List String × List Char) :=
  keyParts? d (d.maxParts.getD (cs.length + 1)) cs

end MqttLink.Toml
