import Syauth.Text.Hex

/-! # The grammar of JSON

Texts and the values they stand for, as in RFC 8259.  The names of an object need not be
distinct, and its members are kept in their order.
-/

namespace Text.Json

inductive Value where
  | null
  | bool (b : Bool)
  | number (text : List Char)
  | string (text : List Char)
  | array (items : List Value)
  | object (members : List (List Char × Value))

def isBlank (c : Char) : Bool :=
  c == ' ' || c == '\t' || c == '\n' || c == '\r'

def Blank (text : List Char) : Prop :=
  ∀ c ∈ text, isBlank c = true

/-! ## Strings -/

/-- A character that stands for itself inside a string. -/
def isPlain (c : Char) : Bool :=
  decide (0x20 ≤ c.toNat) && c != '"' && c != '\\'

/-- The escapes of one letter, with what they stand for. -/
def shortEscapes : List (Char × Char) :=
  [('"', '"'), ('\\', '\\'), ('/', '/'), ('b', '\x08'), ('f', '\x0c'), ('n', '\n'), ('r', '\r'),
    ('t', '\t')]

/-- The code unit that four digits stand for. -/
def codeUnit? : List Char → Option Nat
  | [a, b, c, d] =>
      (hexDigit? a).bind fun i => (hexDigit? b).bind fun j => (hexDigit? c).bind fun k =>
        (hexDigit? d).map fun l => ((i * 16 + j) * 16 + k) * 16 + l
  | _ => none

/-- What stands between the quotes of a string, and the text of the string. -/
inductive IsStringBody : List Char → List Char → Prop where
  | nil : IsStringBody [] []
  | plain {c : Char} {body text : List Char} (hplain : isPlain c = true)
      (hbody : IsStringBody body text) : IsStringBody (c :: body) (c :: text)
  | short {letter c : Char} {body text : List Char} (hescape : (letter, c) ∈ shortEscapes)
      (hbody : IsStringBody body text) : IsStringBody ('\\' :: letter :: body) (c :: text)
  | unicode {digits body text : List Char} {c : Char} (hunit : codeUnit? digits = some c.toNat)
      (hbody : IsStringBody body text) :
      IsStringBody ('\\' :: 'u' :: digits ++ body) (c :: text)
  | surrogates {first second body text : List Char} {high low : Nat} {c : Char}
      (hfirst : codeUnit? first = some (0xD800 + high)) (hhigh : high < 0x400)
      (hsecond : codeUnit? second = some (0xDC00 + low)) (hlow : low < 0x400)
      (hcode : c.toNat = 0x10000 + high * 0x400 + low) (hbody : IsStringBody body text) :
      IsStringBody ('\\' :: 'u' :: first ++ '\\' :: 'u' :: second ++ body) (c :: text)

theorem isStringBody_of_plain {text : List Char} (hplain : ∀ c ∈ text, isPlain c = true) :
    IsStringBody text text := by
  induction text with
  | nil => exact .nil
  | cons c text ih =>
      obtain ⟨hc, htext⟩ := List.forall_mem_cons.mp hplain
      exact .plain hc (ih htext)

/-! ## Numbers -/

def Digits (text : List Char) : Prop :=
  text ≠ [] ∧ ∀ c ∈ text, c.isDigit = true

def IsNumber (text : List Char) : Prop :=
  ∃ sign whole fraction exponent, text = sign ++ whole ++ fraction ++ exponent ∧
    (sign = [] ∨ sign = ['-']) ∧ Digits whole ∧ (whole = ['0'] ∨ whole.head? ≠ some '0') ∧
    (fraction = [] ∨ ∃ digits, Digits digits ∧ fraction = '.' :: digits) ∧
    (exponent = [] ∨ ∃ e mark digits, (e = 'e' ∨ e = 'E') ∧
      (mark = [] ∨ mark = ['+'] ∨ mark = ['-']) ∧ Digits digits ∧ exponent = e :: mark ++ digits)

/-! ## Values -/

mutual

/-- A value without blanks around it. -/
inductive IsValue : List Char → Value → Prop where
  | null : IsValue "null".toList .null
  | yes : IsValue "true".toList (.bool true)
  | no : IsValue "false".toList (.bool false)
  | number {text : List Char} (hnumber : IsNumber text) : IsValue text (.number text)
  | string {body text : List Char} (hbody : IsStringBody body text) :
      IsValue ('"' :: body ++ ['"']) (.string text)
  | emptyArray {blank : List Char} (hblank : Blank blank) :
      IsValue ('[' :: blank ++ [']']) (.array [])
  | array {text : List Char} {items : List Value} (hitems : IsItems text items) :
      IsValue ('[' :: text ++ [']']) (.array items)
  | emptyObject {blank : List Char} (hblank : Blank blank) :
      IsValue ('{' :: blank ++ ['}']) (.object [])
  | object {text : List Char} {members : List (List Char × Value)}
      (hmembers : IsMembers text members) : IsValue ('{' :: text ++ ['}']) (.object members)

/-- Values with commas between them, at least one. -/
inductive IsItems : List Char → List Value → Prop where
  | last {before text after : List Char} {value : Value} (hbefore : Blank before)
      (hvalue : IsValue text value) (hafter : Blank after) :
      IsItems (before ++ text ++ after) [value]
  | cons {before text after rest : List Char} {value : Value} {items : List Value}
      (hbefore : Blank before) (hvalue : IsValue text value) (hafter : Blank after)
      (hrest : IsItems rest items) :
      IsItems (before ++ text ++ after ++ ',' :: rest) (value :: items)

/-- Members with commas between them, at least one. -/
inductive IsMembers : List Char → List (List Char × Value) → Prop where
  | last {text name : List Char} {value : Value} (hmember : IsMember text name value) :
      IsMembers text [(name, value)]
  | cons {text rest name : List Char} {value : Value} {members : List (List Char × Value)}
      (hmember : IsMember text name value) (hrest : IsMembers rest members) :
      IsMembers (text ++ ',' :: rest) ((name, value) :: members)

/-- A name, a colon and a value, with blanks around each of them. -/
inductive IsMember : List Char → List Char → Value → Prop where
  | intro {before body between lead text after name : List Char} {value : Value}
      (hbefore : Blank before) (hname : IsStringBody body name) (hbetween : Blank between)
      (hlead : Blank lead) (hvalue : IsValue text value) (hafter : Blank after) :
      IsMember (before ++ '"' :: body ++ '"' :: between ++ ':' :: lead ++ text ++ after) name value

end

/-- A whole text: one value, with blanks around it. -/
def IsText (text : List Char) (value : Value) : Prop :=
  ∃ before body after, Blank before ∧ IsValue body value ∧ Blank after ∧
    text = before ++ body ++ after

end Text.Json
