import Mathlib.Algebra.Order.Field.Rat

/-! The C library's text input as the programs use it: `fgets` on a stream
and the `scanf` family's directives `%d`, `%f`, `%Ns`, white space and
ordinary characters. A character of a list stands for one byte. -/

namespace HwDrivers

/-- `isspace` in the C locale. -/
def isSpace (c : Char) : Bool :=
  c == ' ' || c == '\t' || c == '\n' || c == '\x0B' || c == '\x0C' || c == '\r'

/-- `isdigit`. -/
def isDigit (c : Char) : Bool := '0' ≤ c && c ≤ '9'

/-- The value of one decimal digit character. -/
def digitValue (c : Char) : ℕ := c.toNat - '0'.toNat

/-- The value of a string of decimal digits, most significant first. -/
def digitsValue (ds : List Char) : ℕ :=
  ds.foldl (fun acc c => 10 * acc + digitValue c) 0

/-- Split off the longest prefix of decimal digits. -/
def spanDigits (s : List Char) : List Char × List Char :=
  (s.takeWhile isDigit, s.dropWhile isDigit)

/-- Skip white space, as a white-space directive and every conversion but
`%c`, `%[` and `%n` do. -/
def skipSpace (s : List Char) : List Char := s.dropWhile isSpace

/-- An optional sign: `true` for `-`. -/
def scanSign : List Char → Bool × List Char
  | '-' :: s => (true, s)
  | '+' :: s => (false, s)
  | s => (false, s)

/-- `%d` after the white space: an optional sign and at least one digit, as
`strtol` in base 10 reads them. Values beyond `int` are undefined in C and
are kept exact here. -/
def scanInt (s : List Char) : Option (ℤ × List Char) :=
  let (neg, s) := scanSign s
  let (ds, rest) := spanDigits s
  if ds = [] then none
  else some (if neg then -(digitsValue ds : ℤ) else digitsValue ds, rest)

/-- `%f` after the white space: the decimal form of `strtod` (sign, digits
with an optional point, optional exponent) and its exact value. Once an `e`
is read, a missing exponent is a matching failure: `scanf` reads the longest
prefix of a numeral and gives no character back. The hexadecimal, infinity
and NaN forms are not modelled. -/
def scanFloat (s : List Char) : Option (ℚ × List Char) :=
  let (neg, s) := scanSign s
  let (whole, s) := spanDigits s
  let (frac, s) := match s with
    | '.' :: t => spanDigits t
    | _ => ([], s)
  if whole = [] ∧ frac = [] then none
  else
    let mantissa : ℚ := (digitsValue (whole ++ frac) : ℚ) / 10 ^ frac.length
    let signed := if neg then -mantissa else mantissa
    match s with
    | c :: t =>
      if c = 'e' ∨ c = 'E' then
        (scanInt t).map fun (e, rest) => (signed * 10 ^ e, rest)
      else some (signed, s)
    | [] => some (signed, [])

/-- `%Ns`: after the white space, at most `width` and at least one
characters up to the next white space. -/
def scanWord (width : ℕ) (s : List Char) : Option (List Char × List Char) :=
  let w := (s.takeWhile (fun c => !isSpace c)).take width
  if w = [] then none else some (w, s.drop w.length)

/-- A directive of a `scanf` format string. -/
inductive ScanDirective
  /-- White space in the format: skips any amount of white space. -/
  | space
  /-- An ordinary character, matched exactly. -/
  | lit (c : Char)
  /-- `%d`. -/
  | int
  /-- `%f`. -/
  | float
  /-- `%Ns`. -/
  | str (width : ℕ)
  deriving DecidableEq, Repr

/-- A value that a conversion stores. -/
inductive ScanValue
  | int (z : ℤ)
  | float (q : ℚ)
  | str (w : List Char)
  deriving DecidableEq, Repr

/-- The directives of a format string with literal text. -/
def lits (s : String) : List ScanDirective := s.toList.map .lit

/-- Run the directives over the input: the values converted until the first
failure, and the input left. Every caller stops at a failure, so what a
failing directive consumed is not modelled. The C return value is the number
of values, or `EOF`; callers only compare it with the full count. -/
def scanf : List ScanDirective → List Char → List ScanValue × List Char
  | [], s => ([], s)
  | .space :: fmt, s => scanf fmt (skipSpace s)
  | .lit c :: fmt, s =>
    match s with
    | d :: t => if d = c then scanf fmt t else ([], s)
    | [] => ([], s)
  | .int :: fmt, s =>
    match scanInt (skipSpace s) with
    | some (z, t) => let r := scanf fmt t; (.int z :: r.1, r.2)
    | none => ([], s)
  | .float :: fmt, s =>
    match scanFloat (skipSpace s) with
    | some (q, t) => let r := scanf fmt t; (.float q :: r.1, r.2)
    | none => ([], s)
  | .str w :: fmt, s =>
    match scanWord w (skipSpace s) with
    | some (v, t) => let r := scanf fmt t; (.str v :: r.1, r.2)
    | none => ([], s)

/-- The line `fgets` reads with room for `n` characters: up to and including
the first newline. -/
def takeLine : ℕ → List Char → List Char × List Char
  | 0, s => ([], s)
  | _, [] => ([], [])
  | n + 1, c :: s =>
    if c = '\n' then ([c], s) else
    let r := takeLine n s
    (c :: r.1, r.2)

/-- `fgets(line, size, f)`: `NULL` at end of file, otherwise at most
`size - 1` characters, up to and including the first newline. -/
def fgets (size : ℕ) : List Char → Option (List Char × List Char)
  | [] => none
  | s => some (takeLine (size - 1) s)

end HwDrivers
