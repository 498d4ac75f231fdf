import LeafWeb.Lab.Binary64
import LeafWeb.Lib.CodeUnits

/-! Canonical JSON of `lab_canonical.py` and of `canonicalJSON` in `contract.js`. A refused value has no
text. -/

namespace LeafWeb.Lab

open Lib

abbrev Text := List UInt16

/-- Data as both sides hold it after parsing; the fields of an object are in the order in which it
was built. -/
inductive Json where
  | null
  | bool (b : Bool)
  | number (x : Binary64)
  | text (s : Text)
  | array (items : List Json)
  | object (fields : List (Text × Json))

structure Writer where
  number : Binary64 → Option (List Char)
  string : Text → Option (List Char)
  before : Text → Text → Bool

def commaSeparated (texts : List (List Char)) : List Char := [','].intercalate texts

def sortFields {A : Type} (before : Text → Text → Bool) (fields : List (Text × A)) : List (Text × A) :=
  fields.mergeSort fun f g => before f.1 g.1

namespace Writer

variable (w : Writer)

mutual

def encode : Json → Option (List Char)
  | .null => some ['n', 'u', 'l', 'l']
  | .bool true => some ['t', 'r', 'u', 'e']
  | .bool false => some ['f', 'a', 'l', 's', 'e']
  | .number x => w.number x
  | .text s => w.string s
  | .array items => do
    let texts ← encodeItems items
    return '[' :: commaSeparated texts ++ [']']
  | .object fields => do
    let texts ← encodeFields fields
    return '\x7b' :: commaSeparated ((sortFields w.before texts).map Prod.snd) ++ ['\x7d']

def encodeItems : List Json → Option (List (List Char))
  | [] => some []
  | v :: vs => do
    let text ← encode v
    let texts ← encodeItems vs
    return text :: texts

def encodeFields : List (Text × Json) → Option (List (Text × List Char))
  | [] => some []
  | (key, v) :: fields => do
    let name ← w.string key
    let text ← encode v
    let texts ← encodeFields fields
    return (key, name ++ ':' :: text) :: texts

end

end Writer

def hexEscape (c : ℕ) : List Char :=
  ['\\', 'u', (c / 4096 % 16).digitChar, (c / 256 % 16).digitChar, (c / 16 % 16).digitChar, (c % 16).digitChar]

def escape (short : List (ℕ × Char)) (c : ℕ) : List Char :=
  match short.lookup c with
  | some e => ['\\', e]
  | none => if c < 0x20 then hexEscape c else [Char.ofNat c]

def quote (short : List (ℕ × Char)) (s : Text) : List Char := '"' :: (codePoints s).flatMap (escape short) ++ ['"']

/-- `json.dumps` without ASCII escapes. -/
def pythonEscapes : List (ℕ × Char) :=
  [(0x5c, '\\'), (0x22, '"'), (0x08, 'b'), (0x0c, 'f'), (0x0a, 'n'), (0x0d, 'r'), (0x09, 't')]

/-- The order in which ECMA-262 lists them for `JSON.stringify`. -/
def scriptEscapes : List (ℕ × Char) :=
  [(0x08, 'b'), (0x09, 't'), (0x0a, 'n'), (0x0c, 'f'), (0x0d, 'r'), (0x22, '"'), (0x5c, '\\')]

/-- Strict UTF-8 refuses surrogates that are not part of a pair. -/
def serverString (s : Text) : Option (List Char) :=
  if (codePoints s).any isSurrogate then none else some (quote pythonEscapes s)

def browserString (s : Text) : Option (List Char) := if wellFormed s then some (quote scriptEscapes s) else none

/-- Keys as big-endian UTF-16 bytes; a key that cannot be encoded is refused with its text. -/
def utf16be (s : Text) : List ℕ := ((codePoints s).flatMap unitsOf).flatMap bigEndian

def serverWriter : Writer where
  number := serverNumber
  string := serverString
  before := fun s t => lexLe (utf16be s) (utf16be t)

def browserWriter : Writer where
  number := browserNumber
  string := browserString
  before := fun s t => lexLe (s.map UInt16.toNat) (t.map UInt16.toNat)

def utf8 (text : List Char) : ByteArray := (String.ofList text).toUTF8

/-- `canonical_json` -/
def canonicalText (v : Json) : Option (List Char) := serverWriter.encode v

/-- `canonical_bytes` -/
def canonicalBytes (v : Json) : Option ByteArray := (canonicalText v).map utf8

/-- `canonicalJSON` -/
def canonicalJSON (v : Json) : Option (List Char) := browserWriter.encode v

def encodedJSON (v : Json) : Option ByteArray := (canonicalJSON v).map utf8

end LeafWeb.Lab
