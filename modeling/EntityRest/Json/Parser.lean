import EntityRest.Json.Object

/-!
# Reading JSON text

The reader accepts the standard grammar and nothing else. It refuses nesting beyond a bound and
numbers too large for a float. Of a repeated key the last value counts.

A number with a fraction or an exponent is read by rounding its leading digits, as many as fit an
unsigned integer of 64 bits, and then scaling by a rounded power of ten.
-/

namespace EntityRest.Json

/-- The largest nesting of arrays and objects in a document. -/
def maxDepth : Nat := 127

/-- Drops spaces, tabs and line ends. -/
def skipBlank : List Char → List Char
  | [] => []
  | c :: s => if c = ' ' ∨ c = '\t' ∨ c = '\n' ∨ c = '\r' then skipBlank s else c :: s

def hexDigit? (c : Char) : Option Nat :=
  if '0' ≤ c ∧ c ≤ '9' then some (c.toNat - 48)
  else if 'a' ≤ c ∧ c ≤ 'f' then some (c.toNat - 87)
  else if 'A' ≤ c ∧ c ≤ 'F' then some (c.toNat - 55)
  else none

/-- The character that a letter stands for after a backslash. -/
def escape? (c : Char) : Option Char :=
  match c with
  | '"' => some '"'
  | '\\' => some '\\'
  | '/' => some '/'
  | 'b' => some (Char.ofNat 8)
  | 'f' => some (Char.ofNat 12)
  | 'n' => some '\n'
  | 'r' => some '\r'
  | 't' => some '\t'
  | _ => none

/-- Where the reader stands inside a string: in plain text, after a backslash, with `left` digits
of a code unit to come, or between the two units of a pair. -/
inductive StringState where
  | plain
  | escaped
  | unit (left value : Nat) (high : Option Nat)
  | pair (high : Nat)
  | pairEscaped (high : Nat)

/-- Reads a string after its opening quote; gives its text and what follows the closing quote. -/
def readString : StringState → List Char → List Char → Option (List Char × List Char)
  | _, _, [] => none
  | .plain, acc, c :: s =>
    if c = '"' then some (acc.reverse, s)
    else if c = '\\' then readString .escaped acc s
    else if c.toNat < 0x20 then none
    else readString .plain (c :: acc) s
  | .escaped, acc, c :: s =>
    if c = 'u' then readString (.unit 4 0 none) acc s
    else
      match escape? c with
      | some d => readString .plain (d :: acc) s
      | none => none
  | .unit left value high, acc, c :: s =>
    match hexDigit? c with
    | none => none
    | some d =>
      let v := value * 16 + d
      if 1 < left then readString (.unit (left - 1) v high) acc s
      else
        match high with
        | some h =>
          if 0xDC00 ≤ v ∧ v ≤ 0xDFFF then
            readString .plain (Char.ofNat (0x10000 + (h - 0xD800) * 0x400 + (v - 0xDC00)) :: acc) s
          else none
        | none =>
          if 0xD800 ≤ v ∧ v ≤ 0xDBFF then readString (.pair v) acc s
          else if 0xDC00 ≤ v ∧ v ≤ 0xDFFF then none
          else readString .plain (Char.ofNat v :: acc) s
  | .pair high, acc, c :: s => if c = '\\' then readString (.pairEscaped high) acc s else none
  | .pairEscaped high, acc, c :: s =>
    if c = 'u' then readString (.unit 4 0 (some high)) acc s else none

/-- Reads digits into a natural of 64 bits, up to the first that does not fit. -/
def takeDigits (n : Nat) : List Char → Nat × List Char
  | [] => (n, [])
  | c :: s =>
    if Decimal.isDigit c then
      let m := n * 10 + Decimal.digitValue c
      if m < UInt64.size then takeDigits m s else (n, c :: s)
    else (n, c :: s)

/-- The float nearest to `10 ^ k`. -/
def powerOfTen (k : Nat) : Binary64 := .ofRatio false (Nat.pow 10 k) 1

/-- Divides by `10 ^ k` in steps of at most `10 ^ 308`. Three steps bring every natural of 64 bits
to zero. -/
def scaleDown : Nat → Binary64 → Nat → Binary64
  | 0, x, _ => x.mul .zero
  | steps + 1, x, k =>
    if k ≤ 308 then x.div (powerOfTen k) else scaleDown steps (x.div (powerOfTen 308)) (k - 308)

/-- The float `n * 10 ^ exponent`, unless it is too large. -/
def scaled? (n : Nat) (exponent : Int) : Option Binary64 :=
  let x : Binary64 := .ofRatio false n 1
  if n = 0 then some x
  else if exponent < 0 then some (scaleDown 3 x exponent.natAbs)
  else if 308 < exponent then none
  else
    let y := x.mul (powerOfTen exponent.natAbs)
    if y.isFinite then some y else none

/-- Reads an optional exponent part; gives the exponent and what follows it. -/
def readExponent : List Char → Option (Int × List Char)
  | [] => some (0, [])
  | c :: s =>
    if c = 'e' ∨ c = 'E' then
      let (negative, t) := Decimal.splitSign s
      let ds := t.takeWhile Decimal.isDigit
      if ds.isEmpty then none
      else
        let e : Int := Decimal.ofDigits ds
        some (if negative then -e else e, t.dropWhile Decimal.isDigit)
    else some (0, c :: s)

/-- Reads the fraction of a number after its point; gives the digits, the change of the exponent
and what follows. -/
def readFraction (n : Nat) (s : List Char) : Option (Nat × Int × List Char) :=
  match s with
  | [] => none
  | c :: _ =>
    if Decimal.isDigit c then
      let (m, rest) := takeDigits n s
      some (m, (rest.length : Int) - s.length, rest.dropWhile Decimal.isDigit)
    else none

def readNumber (s : List Char) : Option (JsonNumber × List Char) := do
  let (negative, s) := match s with
    | '-' :: t => (true, t)
    | t => (false, t)
  let (n, rest) ← match s with
    | '0' :: t =>
      match t with
      | c :: _ => if Decimal.isDigit c then none else some (0, t)
      | [] => some (0, t)
    | c :: _ => if Decimal.isDigit c then some (takeDigits 0 s) else none
    | [] => none
  let dropped := (rest.takeWhile Decimal.isDigit).length
  let rest := rest.dropWhile Decimal.isDigit
  let isFloat := dropped ≠ 0 || (match rest with
    | '.' :: _ | 'e' :: _ | 'E' :: _ => true
    | _ => false)
  let (digits, shift, rest) ← match rest with
    | '.' :: t => readFraction n t
    | t => some (n, 0, t)
  let (exponent, rest) ← readExponent rest
  let float (m : Nat) (e : Int) : Option (JsonNumber × List Char) := do
    let x ← scaled? m e
    let v ← JsonNumber.ofBinary? (if negative then x.neg else x)
    return (v, rest)
  if isFloat then float digits (dropped + shift + exponent)
  else if negative then
    if n = 0 then float 0 0
    else
      match JsonNumber.ofInt? (-n) with
      | some v => some (v, rest)
      | none => float n 0
  else (JsonNumber.ofInt? n).map fun v => (v, rest)

/-- Reads items up to a closing bracket, the first one being due. -/
def readItems (item : List Char → Option (Json × List Char)) :
    Nat → List Json → List Char → Option (List Json × List Char)
  | 0, _, _ => none
  | fuel + 1, acc, s => do
    let (v, rest) ← item s
    match skipBlank rest with
    | ',' :: t => readItems item fuel (v :: acc) t
    | ']' :: t => some ((v :: acc).reverse, t)
    | _ => none

/-- Reads entries up to a closing brace, the first one being due. -/
def readEntries (item : List Char → Option (Json × List Char)) :
    Nat → List (String × Json) → List Char → Option (List (String × Json) × List Char)
  | 0, _, _ => none
  | fuel + 1, acc, s =>
    match skipBlank s with
    | '"' :: s => do
      let (key, rest) ← readString .plain [] s
      match skipBlank rest with
      | ':' :: t => do
        let (v, rest) ← item t
        let acc := (String.ofList key, v) :: acc
        match skipBlank rest with
        | ',' :: t => readEntries item fuel acc t
        | '\x7d' :: t => some (acc.reverse, t)
        | _ => none
      | _ => none
    | _ => none

/-- Reads a document nested at most `depth` deep; gives what follows it. -/
def readValue : Nat → List Char → Option (Json × List Char)
  | depth, s =>
    match skipBlank s with
    | [] => none
    | '"' :: t => (readString .plain [] t).map fun (v, rest) => (.string (String.ofList v), rest)
    | 'n' :: 'u' :: 'l' :: 'l' :: t => some (.null, t)
    | 't' :: 'r' :: 'u' :: 'e' :: t => some (.bool true, t)
    | 'f' :: 'a' :: 'l' :: 's' :: 'e' :: t => some (.bool false, t)
    | '[' :: t =>
      match depth with
      | 0 => none
      | depth + 1 =>
        match skipBlank t with
        | ']' :: t => some (.array [], t)
        | t => (readItems (readValue depth) t.length [] t).map fun (vs, rest) => (.array vs, rest)
    | '\x7b' :: t =>
      match depth with
      | 0 => none
      | depth + 1 =>
        match skipBlank t with
        | '\x7d' :: t => some (.object [], t)
        | t =>
          (readEntries (readValue depth) t.length [] t).map fun (es, rest) =>
            (.object (Entries.ofPairs es), rest)
    | t => (readNumber t).map fun (n, rest) => (.number n, rest)

/-- The document that a whole text writes, nested at most `depth` deep. -/
def readWithin (depth : Nat) (s : List Char) : Option Json :=
  match readValue depth s with
  | some (v, rest) => if (skipBlank rest).isEmpty then some v else none
  | none => none

def ofText? (s : String) : Option Json := readWithin maxDepth s.toList

end EntityRest.Json
