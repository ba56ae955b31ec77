import AccessScope.Json.Basic

/-!
# The text of a JSON value

A total reader of JSON text. Between the parts stand spaces, tabs and line ends only; nothing may
follow the value, and neither a comma before a closing bracket nor a zero before another digit is
allowed. How deep values are nested is not limited here.

* `Json.parse?`  the value that a text writes down, if it is well formed
-/

namespace AccessScope.Json

/-- The text without the blanks in front that may stand between the parts of a value. -/
def skipBlanks (s : List Char) : List Char :=
  s.dropWhile fun c => c = ' ' || c = '\n' || c = '\t' || c = '\r'

/-- The value of a hexadecimal digit. -/
def hexDigit? (c : Char) : Option Nat :=
  if '0' ≤ c && c ≤ '9' then some (c.toNat - 48)
  else if 'a' ≤ c && c ≤ 'f' then some (c.toNat - 87)
  else if 'A' ≤ c && c ≤ 'F' then some (c.toNat - 55)
  else none

/-- The value of four hexadecimal digits. -/
def hexUnit? (a b c d : Char) : Option Nat := do
  return (((← hexDigit? a) * 16 + (← hexDigit? b)) * 16 + (← hexDigit? c)) * 16 + (← hexDigit? d)

/-- Is the number the first half of a surrogate pair? -/
def isLead (n : Nat) : Bool := 0xD800 ≤ n && n < 0xDC00

/-- Is the number the second half of a surrogate pair? -/
def isTrail (n : Nat) : Bool := 0xDC00 ≤ n && n < 0xE000

/-- The character that a letter stands for after a backslash. -/
def escaped? : Char → Option Char
  | '"' => some '"'
  | '\\' => some '\\'
  | '/' => some '/'
  | 'b' => some '\x08'
  | 'f' => some '\x0c'
  | 'n' => some '\n'
  | 'r' => some '\r'
  | 't' => some '\t'
  | _ => none

/-- Reads the rest of a string up to its closing quote and gives what follows it. The characters
read so far are in `done`, the last one first; `paired` says that no half of a surrogate pair stood
alone so far, and there is a text only then. -/
def stringRest (done : List Char) (paired : Bool) : List Char → Option (Option String × List Char)
  | [] => none
  | '"' :: rest => some (if paired then some (String.ofList done.reverse) else none, rest)
  | '\\' :: 'u' :: a :: b :: c :: d :: '\\' :: 'u' :: e :: f :: g :: h :: rest =>
    match hexUnit? a b c d, hexUnit? e f g h with
    | some n, some m =>
      -- two halves in their order are one character; otherwise the second escape is read again
      if isLead n && isTrail m then
        stringRest (Char.ofNat (0x10000 + (n - 0xD800) * 0x400 + (m - 0xDC00)) :: done) paired rest
      else if isLead n || isTrail n then
        stringRest done false ('\\' :: 'u' :: e :: f :: g :: h :: rest)
      else
        stringRest (Char.ofNat n :: done) paired ('\\' :: 'u' :: e :: f :: g :: h :: rest)
    | _, _ => none
  | '\\' :: 'u' :: a :: b :: c :: d :: rest =>
    match hexUnit? a b c d with
    | some n =>
      if isLead n || isTrail n then stringRest done false rest
      else stringRest (Char.ofNat n :: done) paired rest
    | none => none
  | '\\' :: e :: rest =>
    match escaped? e with
    | some c => stringRest (c :: done) paired rest
    | none => none
  | c :: rest => if c < ' ' then none else stringRest (c :: done) paired rest

/-- The digits in front and what follows them. -/
def spanDigits (s : List Char) : List Char × List Char :=
  s.span (·.isDigit)

/-- The value of decimal digits. -/
def digitsValue (digits : List Char) : Nat :=
  digits.foldl (fun n c => n * 10 + (c.toNat - 48)) 0

/-- Reads the digits behind a decimal point, if there is one. -/
def fraction? : List Char → Option (List Char × List Char)
  | '.' :: s =>
    match spanDigits s with
    | ([], _) => none
    | (digits, rest) => some (digits, rest)
  | s => some ([], s)

/-- Reads the exponent, if there is one. -/
def exponent? (s : List Char) : Option (Option Int × List Char) :=
  let signed (sign : Int) (s : List Char) : Option (Option Int × List Char) :=
    match spanDigits s with
    | ([], _) => none
    | (digits, rest) => some (some (sign * digitsValue digits), rest)
  match s with
  | c :: s =>
    if c = 'e' || c = 'E' then
      match s with
      | '+' :: s => signed 1 s
      | '-' :: s => signed (-1) s
      | s => signed 1 s
    else some (none, c :: s)
  | [] => some (none, [])

/-- Reads a number without its sign. -/
def unsigned? (sign : Int) (s : List Char) : Option (Json × List Char) := do
  let (whole, rest) := spanDigits s
  -- a zero in front of other digits is refused
  if whole.isEmpty || (whole.head? == some '0' && whole.length != 1) then none
  let (places, rest) ← fraction? rest
  let (power, rest) ← exponent? rest
  if places.isEmpty && power.isNone && !(sign < 0 && digitsValue whole == 0) then
    return (int (sign * digitsValue whole), rest)
  else
    -- the places count as digits of the mantissa, each taking one off the exponent
    return (decimal (sign * digitsValue (whole ++ places)) (power.getD 0 - places.length), rest)

/-- Reads a number. -/
def number? : List Char → Option (Json × List Char)
  | '-' :: s => unsigned? (-1) s
  | s => unsigned? 1 s

/-- Reads a value that holds no other values. -/
def scalar? : List Char → Option (Json × List Char)
  | 'n' :: 'u' :: 'l' :: 'l' :: rest => some (null, rest)
  | 't' :: 'r' :: 'u' :: 'e' :: rest => some (bool true, rest)
  | 'f' :: 'a' :: 'l' :: 's' :: 'e' :: rest => some (bool false, rest)
  | '"' :: rest =>
    match stringRest [] true rest with
    | some (some text, rest) => some (str text, rest)
    | some (none, rest) => some (unpaired, rest)
    | none => none
  | s => number? s

/-- Reads the key of a member and the colon behind it. -/
def key? (s : List Char) : Option (Option String × List Char) :=
  match skipBlanks s with
  | '"' :: rest =>
    match stringRest [] true rest with
    | none => none
    | some (key, rest) =>
      match skipBlanks rest with
      | ':' :: rest => some (key, rest)
      | _ => none
  | _ => none

/-- A list or an object whose closing bracket has not been read yet, with what it holds so far, the
last part first. -/
inductive Frame where
  | list (done : List Json)
  /-- The members are lost once a key had no text; `key` belongs to the value that comes next. -/
  | object (done : Option (List (String × Json))) (key : Option String)

/-- The members of an object after one more value was read under `key`. -/
def Frame.member (done : Option (List (String × Json))) (key : Option String) (j : Json) :
    Option (List (String × Json)) :=
  match done, key with
  | some members, some key => some ((key, j) :: members)
  | _, _ => none

/-- Reads a value inside the given frames, the innermost first, up to the end of the outermost
one, and gives what follows it. `last` is the value that was read just now; without one, a value
comes next. -/
def run? : Nat → List Frame → Option Json → List Char → Option (Json × List Char)
  | 0, _, _, _ => none
  | fuel + 1, frames, none, s =>
    match skipBlanks s with
    | '[' :: rest =>
      match skipBlanks rest with
      | ']' :: rest => run? fuel frames (some (arr [])) rest
      | rest => run? fuel (.list [] :: frames) none rest
    | '{' :: rest =>
      match skipBlanks rest with
      | '}' :: rest => run? fuel frames (some (obj [])) rest
      | rest =>
        match key? rest with
        | some (key, rest) => run? fuel (.object (some []) key :: frames) none rest
        | none => none
    | s =>
      match scalar? s with
      | some (j, rest) => run? fuel frames (some j) rest
      | none => none
  | _ + 1, [], some j, s => some (j, s)
  | fuel + 1, .list done :: frames, some j, s =>
    match skipBlanks s with
    | ',' :: rest => run? fuel (.list (j :: done) :: frames) none rest
    | ']' :: rest => run? fuel frames (some (arr (j :: done).reverse)) rest
    | _ => none
  | fuel + 1, .object done key :: frames, some j, s =>
    let done := Frame.member done key j
    match skipBlanks s with
    | ',' :: rest =>
      match key? rest with
      | some (key, rest) => run? fuel (.object done key :: frames) none rest
      | none => none
    | '}' :: rest =>
      run? fuel frames (some (match done with | some ms => obj ms.reverse | none => unpaired)) rest
    | _ => none

/-- The value that a text writes down. Every step but the last takes a character away, so as many
steps as there are characters, and one more, are enough. -/
def parse? (text : String) : Option Json :=
  let s := text.toList
  match run? (s.length + 1) [] none s with
  | some (j, rest) => if (skipBlanks rest).isEmpty then some j else none
  | none => none

end AccessScope.Json
