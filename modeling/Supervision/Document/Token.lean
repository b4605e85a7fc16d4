import Supervision.Document.Numeral

/-!
# Tokens of documents

Marks, words, numbers and texts, in the order they stand. A token that is broken off, or does not
exist in the format, ends the sequence.

What a broken text or number means depends on its reader: one that wants the value reports the first
thing wrong with it, one that skips it only cares where it ends. So a text keeps its pieces as they
were written (`Scan`), and a broken number keeps its flaw.
-/

namespace Supervision.Document

/-- What is wrong with a document. -/
inductive Flaw where
  /-- It breaks the rules of the format. -/
  | malformed
  /-- It ends too early. -/
  | truncated
deriving DecidableEq, Inhabited

/-- One written piece of a text: a character, or a 16-bit unit given by its four digits. -/
inductive Piece where
  | char (c : Char)
  | unit (n : Nat)
deriving DecidableEq

/-- A text as it is written, up to its closing quote or its first flaw. -/
structure Scan where
  /-- The pieces in order. -/
  pieces : List Piece
  /-- Why it has no closing quote. -/
  flaw : Option Flaw
deriving DecidableEq

namespace Scan

/-- The unit is the first half of a pair. -/
def isHigh (n : Nat) : Bool := 0xD800 ≤ n && n ≤ 0xDBFF

/-- The unit is the second half of a pair. -/
def isLow (n : Nat) : Bool := 0xDC00 ≤ n && n ≤ 0xDFFF

/-- Joins paired units; a half without its partner is malformed, unless the document ends there. -/
def join (flaw : Option Flaw) : List Piece → Except Flaw (List Char)
  | [] => match flaw with
    | none => .ok []
    | some f => .error f
  | .char c :: ps => (join flaw ps).map (c :: ·)
  | .unit n :: ps =>
    if isLow n then .error .malformed
    else if isHigh n then
      match ps with
      | .unit m :: rest =>
        if isLow m then
          (join flaw rest).map
            (Char.ofNat (0x10000 + (n - 0xD800) * 0x400 + (m - 0xDC00)) :: ·)
        else .error .malformed
      | [] => .error (flaw.getD .malformed)
      | .char _ :: _ => .error .malformed
    else (join flaw ps).map (Char.ofNat n :: ·)

/-- The text that was written. -/
def text (s : Scan) : Except Flaw String := (join s.flaw s.pieces).map String.ofList

end Scan

/-- The smallest parts of a document. -/
inductive Token where
  /-- A bracket, brace, comma or colon. -/
  | mark (c : Char)
  | null
  | bool (b : Bool)
  | number (n : Numeral)
  /-- A number that breaks off. -/
  | tornNumber (f : Flaw)
  /-- A word that breaks off. -/
  | torn (f : Flaw)
  | text (s : Scan)
  /-- A character that begins nothing. -/
  | junk
deriving Inhabited

/-! ### Texts -/

/-- The value of a hexadecimal digit. -/
def hexDigit? (c : Char) : Option Nat :=
  if '0' ≤ c ∧ c ≤ '9' then some (c.toNat - '0'.toNat)
  else if 'a' ≤ c ∧ c ≤ 'f' then some (c.toNat - 'a'.toNat + 10)
  else if 'A' ≤ c ∧ c ≤ 'F' then some (c.toNat - 'A'.toNat + 10)
  else none

/-- The unit written by four hexadecimal digits. -/
def unit? (a b c d : Char) : Option Nat := do
  return (((← hexDigit? a) * 16 + (← hexDigit? b)) * 16 + (← hexDigit? c)) * 16 + (← hexDigit? d)

/-- The character that a one-letter escape stands for. -/
def escaped? : Char → Option Char
  | '"' => some '"'
  | '\\' => some '\\'
  | '/' => some '/'
  | 'b' => some '\x08'
  | 'f' => some '\x0c'
  | 'n' => some '\n'
  | 'r' => some '\r'
  | 't' => some '\t'
  | _ => none

/-- Four digits are missing: the document ends, unless four bytes are left that are no digits. -/
def shortUnit (rest : List Char) : Flaw :=
  if (String.ofList rest).utf8ByteSize < 4 then .truncated else .malformed

/-- Puts a piece in front of a scanned text. -/
def Scan.cons (p : Piece) (r : Scan × List Char) : Scan × List Char :=
  (⟨p :: r.1.pieces, r.1.flaw⟩, r.2)

/-- A text that breaks off here. -/
def Scan.cut (f : Flaw) : Scan × List Char := (⟨[], some f⟩, [])

/-- Scans a text from behind its opening quote, with what follows it. -/
def scanText : List Char → Scan × List Char
  | [] => Scan.cut .truncated
  | '"' :: rest => (⟨[], none⟩, rest)
  | ['\\'] => Scan.cut .truncated
  | '\\' :: 'u' :: a :: b :: c :: d :: rest =>
    match unit? a b c d with
    | some n => Scan.cons (.unit n) (scanText rest)
    | none => Scan.cut .malformed
  | '\\' :: e :: rest =>
    if e = 'u' then Scan.cut (shortUnit rest)
    else
      match escaped? e with
      | some c => Scan.cons (.char c) (scanText rest)
      | none => Scan.cut .malformed
  | c :: rest => if c.toNat < 0x20 then Scan.cut .malformed else Scan.cons (.char c) (scanText rest)

/-! ### Numbers -/

/-- The value of a decimal digit. -/
def digit? (c : Char) : Option Nat :=
  if '0' ≤ c ∧ c ≤ '9' then some (c.toNat - '0'.toNat) else none

/-- The leading digits, and what follows them. -/
def splitDigits (cs : List Char) : List Nat × List Char :=
  ((cs.takeWhile (digit? · |>.isSome)).filterMap digit?, cs.dropWhile (digit? · |>.isSome))

/-- At least one digit, and what follows. -/
def someDigits (cs : List Char) : Except Flaw (List Nat × List Char) :=
  match splitDigits cs with
  | ([], []) => .error .truncated
  | ([], _ :: _) => .error .malformed
  | (d :: ds, rest) => .ok (d :: ds, rest)

/-- The digits before the point; a leading zero stands alone. -/
def wholeDigits (cs : List Char) : Except Flaw (List Nat × List Char) := do
  let (ds, rest) ← someDigits cs
  match ds with
  | 0 :: _ :: _ => .error .malformed
  | _ => return (ds, rest)

/-- The places behind a point, if there is one. -/
def places (cs : List Char) : Except Flaw (Option (List Nat) × List Char) :=
  match cs with
  | '.' :: rest => (someDigits rest).map fun (ds, rest) ↦ (some ds, rest)
  | _ => .ok (none, cs)

/-- The power of ten behind its letter, if there is one. -/
def power (cs : List Char) : Except Flaw (Option (Bool × List Nat) × List Char) :=
  let digits (minus : Bool) (cs : List Char) :=
    (someDigits cs).map fun (ds, rest) ↦ (some (minus, ds), rest)
  match cs with
  | c :: rest =>
    if c = 'e' ∨ c = 'E' then
      match rest with
      | '+' :: rest => digits false rest
      | '-' :: rest => digits true rest
      | _ => digits false rest
    else .ok (none, cs)
  | [] => .ok (none, cs)

/-- A number from its first character on. -/
def scanNumber (cs : List Char) : Except Flaw (Numeral × List Char) := do
  let (negative, cs) := match cs with
    | '-' :: rest => (true, rest)
    | _ => (false, cs)
  let (whole, cs) ← wholeDigits cs
  let (places, cs) ← places cs
  let (power, cs) ← power cs
  return ((Written.mk negative whole places power).value, cs)

/-! ### The sequence -/

/-- The rest of a word, or where it breaks off. -/
def word (rest : List Char) : List Char → Except Flaw (List Char)
  | [] => .ok rest
  | w :: ws =>
    match rest with
    | [] => .error .truncated
    | c :: rest => if c = w then word rest ws else .error .malformed

/-- A word token and what follows it. -/
def wordToken (t : Token) (rest : List Char) (tail : String) : Token × List Char :=
  match word rest tail.toList with
  | .ok rest => (t, rest)
  | .error f => (.torn f, [])

/-- The token that begins with `c`, and what follows it. -/
def token (c : Char) (rest : List Char) : Token × List Char :=
  match c with
  | 'n' => wordToken .null rest "ull"
  | 't' => wordToken (.bool true) rest "rue"
  | 'f' => wordToken (.bool false) rest "alse"
  | '"' => let (s, rest) := scanText rest; (.text s, rest)
  | _ =>
    if c = '-' ∨ (digit? c).isSome then
      match scanNumber (c :: rest) with
      | .ok (n, rest) => (.number n, rest)
      | .error f => (.tornNumber f, [])
    else if c ∈ ['[', ']', '{', '}', ',', ':'] then (.mark c, rest)
    else (.junk, [])

/-- Blank characters between tokens. -/
def isBlank (c : Char) : Bool := c = ' ' || c = '\n' || c = '\t' || c = '\r'

/-- The tokens of a document, at most `fuel` of them. -/
def tokensUpTo : Nat → List Char → List Token
  | 0, _ => []
  | fuel + 1, cs =>
    match cs.dropWhile isBlank with
    | [] => []
    | c :: rest => let (t, rest) := token c rest; t :: tokensUpTo fuel rest

/-- The tokens of a document. Each takes a character at least, so there are no more tokens than
characters. -/
def tokens (s : String) : List Token := tokensUpTo s.length s.toList

end Supervision.Document
