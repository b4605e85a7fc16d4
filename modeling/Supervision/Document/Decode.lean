import Supervision.Document.Tree
import Supervision.Numeric.Shortest
import Supervision.Text.Quoted
import Supervision.Time.Span

/-!
# Values out of documents

Decoders walk a document in writing order and stop at the first error. A record is written as an
object or as the list of its fields in their order; what is missing keeps the value it has in the
record that decoding starts from, and unknown fields are skipped.
-/

namespace Supervision.Document

/-- Why a document gives no value. -/
inductive ReadError where
  /-- The document is ill-formed or too short. -/
  | form (f : Flaw)
  /-- A value of another type was expected. -/
  | invalidType (found expected : String)
  /-- A whole number is out of range. -/
  | invalidValue (found : Int) (expected : String)
  /-- None of the names a choice has. -/
  | unknownVariant (found : String) (names : List String)
  /-- A field is given twice. -/
  | duplicateField (name : String)
  /-- A number of seconds is no length of time. -/
  | span (reason : Span.Unreadable)
deriving DecidableEq

/-- What is said of content that is wrong; errors of form have no text. -/
def ReadError.message? : ReadError → Option String
  | .form _ => none
  | .invalidType found expected => some ("invalid type: " ++ found ++ ", expected " ++ expected)
  | .invalidValue found expected =>
    some ("invalid value: integer \x60" ++ toString found ++ "\x60, expected " ++ expected)
  | .unknownVariant found names =>
    some ("unknown variant \x60" ++ found ++ "\x60, expected one of "
      ++ ", ".intercalate (names.map fun n ↦ "\x60" ++ n ++ "\x60"))
  | .duplicateField name => some ("duplicate field \x60" ++ name ++ "\x60")
  | .span reason => some reason.message

/-- The result of decoding. -/
abbrev Decoded := Except ReadError

/-- The text of a scan, or what is wrong with it. -/
def Scan.decode (s : Scan) : Decoded String :=
  match s.text with
  | .ok t => .ok t
  | .error f => .error (.form f)

namespace Doc

/-- What a value is called in messages, or what is wrong with it. -/
def describe : Doc → Decoded String
  | .null => .ok "null"
  | .bool b => .ok ("boolean \x60" ++ (if b then "true" else "false") ++ "\x60")
  | .number (.whole n) => .ok ("integer \x60" ++ toString n ++ "\x60")
  | .number (.real x) => .ok ("floating point \x60" ++ Numeric.Shortest.text x ++ "\x60")
  | .number .tooLarge => .error (.form .malformed)
  | .text s => s.decode.map fun t ↦ "string " ++ Text.quoted t
  | .list _ => .ok "sequence"
  | .object _ => .ok "map"
  | .tornNumber f | .torn f | .absent f => .error (.form f)

/-- The value is not of the type that was expected. -/
def reject {α : Type} (d : Doc) (expected : String) : Decoded α := do
  throw (.invalidType (← d.describe) expected)

/-- A floating-point number; whole numbers count. -/
def float (d : Doc) : Decoded Float :=
  match d with
  | .number (.whole (.ofNat n)) => .ok (Float.ofNat n)
  | .number (.whole (.negSucc n)) => .ok (-(Float.ofNat (n + 1)))
  | .number (.real x) => .ok x
  | d => d.reject "f64"

/-- A natural below `bound`, whose type has the given name. -/
def natural (bound : Nat) (type : String) (d : Doc) : Decoded Nat :=
  match d with
  | .number (.whole n) =>
    if 0 ≤ n ∧ n < bound then .ok n.toNat else .error (.invalidValue n type)
  | d => d.reject type

/-- A length of time in seconds. -/
def span (d : Doc) : Decoded Span := do
  match Span.ofSeconds? (← d.float) with
  | .ok s => return s
  | .error e => throw (.span e)

/-- A text. -/
def string (expected : String) (d : Doc) : Decoded String :=
  match d with
  | .text s => s.decode
  | d => d.reject expected

/-- The value of a name. -/
def choose {α : Type} (choices : List (String × α)) (name : String) : Decoded α :=
  match choices.lookup name with
  | some a => .ok a
  | none => .error (.unknownVariant name (choices.map (·.1)))

/-- Nothing but the empty value. -/
def unit (d : Doc) : Decoded Unit :=
  match d with
  | .null => .ok ()
  | d => d.reject "unit"

/-- One of several names, as a text or as the only field of an object with an empty value. -/
def choice {α : Type} (choices : List (String × α)) (d : Doc) : Decoded α :=
  match d with
  | .text s => do choose choices (← s.decode)
  | .absent f => .error (.form f)
  | .object (.field key value rest) => do
    let a ← choose choices (← key.decode)
    value.unit
    match rest with
    | .close => return a
    | .cut f => throw (.form f)
    | _ => throw (.form .malformed)
  | .object (.stray d) => d.reject "variant identifier"
  | .object (.cut f) => .error (.form f)
  | _ => .error (.form .malformed)

/-! ### Records -/

/-- A field of a record: its name, and how a value for it changes the record. -/
structure Slot (α : Type) where
  /-- Name of the field. -/
  name : String
  /-- The record with the value put in. -/
  put : Doc → α → Decoded α

/-- The end of a value that is skipped. -/
def skip (d : Doc) : Decoded Unit :=
  match d.flaw? with
  | none => .ok ()
  | some f => .error (.form f)

/-- The record with the fields of an object put in. -/
def fields {α : Type} (slots : List (Slot α)) (seen : List String) (a : α) : Fields → Decoded α
  | .close => .ok a
  | .cut f | .stray (.absent f) => .error (.form f)
  | .stray _ => .error (.form .malformed)
  | .field key value rest => do
    let name ← key.decode
    match slots.find? (·.name == name) with
    | some slot =>
      if name ∈ seen then throw (.duplicateField name)
      fields slots (name :: seen) (← slot.put value a) rest
    | none =>
      value.skip
      fields slots seen a rest

/-- The record with the values of a list put in, one for each field in their order. -/
def items {α : Type} (slots : List (Slot α)) (a : α) (values : Items) : Decoded α :=
  match slots, values with
  | _, .close => .ok a
  | _, .cut f => .error (.form f)
  | slot :: slots, .item value rest => do items slots (← slot.put value a) rest
  | [], .item _ _ => .error (.form .malformed)

/-- A record, given as an object or as the list of its fields. -/
def record {α : Type} (type : String) (slots : List (Slot α)) (a : α) (d : Doc) : Decoded α :=
  match d with
  | .object fs => fields slots [] a fs
  | .list vs => items slots a vs
  | d => d.reject ("struct " ++ type)

end Doc

/-- The value of a whole text, behind which nothing may follow. -/
def decodeText {α : Type} (decoder : Doc → Decoded α) (s : String) : Decoded α := do
  let (doc, more) := read s
  let a ← decoder doc
  if more then throw (.form .malformed) else return a

end Supervision.Document
