import Supervision.Document.Token

/-!
# Documents as trees

`Doc` is what a document says, as far as it can be read. Where reading has to stop, the tree holds
the reason at that place, so a reader that walks the tree in writing order meets the first error of
the document first, be it an error of form or of content.

* `Doc.flaw?` — the first error of form a reader meets that skips the value.
-/

namespace Supervision.Document

mutual

/-- A value of a document. -/
inductive Doc where
  | null
  | bool (b : Bool)
  | number (n : Numeral)
  | text (s : Scan)
  | list (items : Items)
  | object (fields : Fields)
  /-- A number that breaks off. -/
  | tornNumber (f : Flaw)
  /-- A word that breaks off. -/
  | torn (f : Flaw)
  /-- No value begins here. -/
  | absent (f : Flaw)

/-- The values of a list, up to its end or to where reading stops. -/
inductive Items where
  | close
  | item (value : Doc) (rest : Items)
  /-- Neither a comma nor the end follows. -/
  | cut (f : Flaw)

/-- The fields of an object, up to its end or to where reading stops. -/
inductive Fields where
  | close
  | field (key : Scan) (value : Doc) (rest : Fields)
  /-- Neither a comma nor the end follows. -/
  | cut (f : Flaw)
  /-- This stands where a key should. -/
  | stray (value : Doc)

end

instance : Inhabited Doc := ⟨.null⟩

/-! ### Skipping -/

mutual

/-- The first error of form in a value that is skipped. -/
def Doc.flaw? : Doc → Option Flaw
  | .null | .bool _ | .number _ => none
  | .text s => s.flaw
  | .list items => items.flaw?
  | .object fields => fields.flaw?
  | .tornNumber _ => some .malformed
  | .torn f | .absent f => some f

/-- The first error of form in skipped values. -/
def Items.flaw? : Items → Option Flaw
  | .close => none
  | .item value rest => value.flaw?.or rest.flaw?
  | .cut f => some f

/-- The first error of form in skipped fields. -/
def Fields.flaw? : Fields → Option Flaw
  | .close => none
  | .field key value rest => key.flaw.or (value.flaw?.or rest.flaw?)
  | .cut f => some f
  | .stray (.absent f) => some f
  | .stray _ => some .malformed

end

/-! ### Building -/

/-- What stands where a comma or an end should. -/
def cutAt : List Token → Flaw
  | [] => .truncated
  | _ :: _ => .malformed

mutual

/-- The value at the head of the tokens, and the tokens behind it. -/
def readValue : Nat → List Token → Doc × List Token
  | 0, ts => (.absent (cutAt ts), [])
  | _, [] => (.absent .truncated, [])
  | fuel + 1, t :: ts =>
    match t with
    | .null => (.null, ts)
    | .bool b => (.bool b, ts)
    | .number n => (.number n, ts)
    | .tornNumber f => (.tornNumber f, [])
    | .torn f => (.torn f, [])
    | .text s => (.text s, ts)
    | .junk => (.absent .malformed, [])
    | .mark '[' =>
      match ts with
      | .mark ']' :: ts => (.list .close, ts)
      | [] => (.list (.cut .truncated), [])
      | _ => let (items, ts) := readItems fuel ts; (.list items, ts)
    | .mark '{' =>
      match ts with
      | .mark '}' :: ts => (.object .close, ts)
      | _ => let (fields, ts) := readFields fuel ts; (.object fields, ts)
    | .mark _ => (.absent .malformed, [])

/-- A value and the values after it. -/
def readItems : Nat → List Token → Items × List Token
  | 0, ts => (.cut (cutAt ts), [])
  | fuel + 1, ts =>
    let (value, ts) := readValue fuel ts
    match ts with
    | .mark ']' :: ts => (.item value .close, ts)
    | .mark ',' :: ts => let (rest, ts) := readItems fuel ts; (.item value rest, ts)
    | ts => (.item value (.cut (cutAt ts)), [])

/-- A field and the fields after it. -/
def readFields : Nat → List Token → Fields × List Token
  | 0, ts => (.cut (cutAt ts), [])
  | fuel + 1, ts =>
    match ts with
    | .text key :: .mark ':' :: ts =>
      let (value, ts) := readValue fuel ts
      match ts with
      | .mark '}' :: ts => (.field key value .close, ts)
      | .mark ',' :: ts => let (rest, ts) := readFields fuel ts; (.field key value rest, ts)
      | ts => (.field key value (.cut (cutAt ts)), [])
    | .text key :: ts => (.field key (.absent (cutAt ts)) .close, [])
    | ts => let (value, _) := readValue fuel ts; (.stray value, [])

end

/-- The document of a text: its value, and whether anything follows the value. -/
def read (s : String) : Doc × Bool :=
  let ts := tokens s
  let (doc, rest) := readValue (2 * ts.length + 1) ts
  (doc, !rest.isEmpty)

end Supervision.Document
