import Mathlib

/-!
# JSON values

The values Renga stores in `jsonb` columns, as its codec decodes them: a number with a
fraction, an exponent or too many digits is a decimal, every other number an integer.  An
object is the list of its fields.  `jsonbText` is PostgreSQL's text output of a value, which the
database's size constraints measure.
-/

namespace Renga

/-- A decoded JSON value.  `decimal` carries sign, coefficient and exponent. -/
inductive Json where
  | null
  | bool (b : Bool)
  | int (n : ℤ)
  | decimal (negative : Bool) (coef : ℕ) (exp : ℤ)
  | string (s : String)
  | array (items : List Json)
  | object (fields : List (String × Json))
  deriving Inhabited

namespace Json

/-! ### Decidable equality

The type is nested in `List`, so the instance is written out along its three
mutual parts. -/

mutual

def decEq : (a b : Json) → Decidable (a = b)
  | .null, .null => isTrue rfl
  | .bool a, .bool b =>
    if h : a = b then isTrue (h ▸ rfl) else isFalse fun eq => h (Json.bool.inj eq)
  | .int a, .int b =>
    if h : a = b then isTrue (h ▸ rfl) else isFalse fun eq => h (Json.int.inj eq)
  | .decimal n c e, .decimal n' c' e' =>
    if h : n = n' ∧ c = c' ∧ e = e' then
      isTrue (by obtain ⟨rfl, rfl, rfl⟩ := h; rfl)
    else isFalse fun eq => h (by cases eq; exact ⟨rfl, rfl, rfl⟩)
  | .string a, .string b =>
    if h : a = b then isTrue (h ▸ rfl) else isFalse fun eq => h (Json.string.inj eq)
  | .array a, .array b =>
    match decEqItems a b with
    | isTrue h => isTrue (h ▸ rfl)
    | isFalse h => isFalse fun eq => h (Json.array.inj eq)
  | .object a, .object b =>
    match decEqFields a b with
    | isTrue h => isTrue (h ▸ rfl)
    | isFalse h => isFalse fun eq => h (Json.object.inj eq)
  | .null, .bool _ | .null, .int _ | .null, .decimal _ _ _ | .null, .string _
  | .null, .array _ | .null, .object _ => isFalse nofun
  | .bool _, .null | .bool _, .int _ | .bool _, .decimal _ _ _ | .bool _, .string _
  | .bool _, .array _ | .bool _, .object _ => isFalse nofun
  | .int _, .null | .int _, .bool _ | .int _, .decimal _ _ _ | .int _, .string _
  | .int _, .array _ | .int _, .object _ => isFalse nofun
  | .decimal _ _ _, .null | .decimal _ _ _, .bool _ | .decimal _ _ _, .int _
  | .decimal _ _ _, .string _ | .decimal _ _ _, .array _ | .decimal _ _ _, .object _ =>
    isFalse nofun
  | .string _, .null | .string _, .bool _ | .string _, .int _ | .string _, .decimal _ _ _
  | .string _, .array _ | .string _, .object _ => isFalse nofun
  | .array _, .null | .array _, .bool _ | .array _, .int _ | .array _, .decimal _ _ _
  | .array _, .string _ | .array _, .object _ => isFalse nofun
  | .object _, .null | .object _, .bool _ | .object _, .int _ | .object _, .decimal _ _ _
  | .object _, .string _ | .object _, .array _ => isFalse nofun

def decEqItems : (a b : List Json) → Decidable (a = b)
  | [], [] => isTrue rfl
  | [], _ :: _ | _ :: _, [] => isFalse nofun
  | x :: xs, y :: ys =>
    match decEq x y, decEqItems xs ys with
    | isTrue hx, isTrue hxs => isTrue (hx ▸ hxs ▸ rfl)
    | isFalse hx, _ => isFalse fun eq => hx (List.cons.inj eq).1
    | _, isFalse hxs => isFalse fun eq => hxs (List.cons.inj eq).2

def decEqFields : (a b : List (String × Json)) → Decidable (a = b)
  | [], [] => isTrue rfl
  | [], _ :: _ | _ :: _, [] => isFalse nofun
  | (k, x) :: xs, (k', y) :: ys =>
    if hk : k = k' then
      match decEq x y, decEqFields xs ys with
      | isTrue hx, isTrue hxs => isTrue (hk ▸ hx ▸ hxs ▸ rfl)
      | isFalse hx, _ => isFalse fun eq => hx (Prod.mk.inj (List.cons.inj eq).1).2
      | _, isFalse hxs => isFalse fun eq => hxs (List.cons.inj eq).2
    else isFalse fun eq => hk (Prod.mk.inj (List.cons.inj eq).1).1

end

instance : DecidableEq Json := decEq

/-! ### Reading fields -/

/-- The value of a field, as `Map.get/2` reads it from an object. -/
def get? (fields : List (String × Json)) (name : String) : Option Json :=
  (fields.find? fun field => field.1 == name).map Prod.snd

/-! ### PostgreSQL's text form -/

/-- The four lowercase hexadecimal digits of a control character's escape. -/
def hexDigit (n : ℕ) : Char :=
  if n < 10 then Char.ofNat (48 + n) else Char.ofNat (87 + n)

def escapeChar (c : Char) : List Char :=
  if c = '"' then ['\\', '"']
  else if c = '\\' then ['\\', '\\']
  else if c.toNat = 8 then ['\\', 'b']
  else if c.toNat = 12 then ['\\', 'f']
  else if c.toNat = 10 then ['\\', 'n']
  else if c.toNat = 13 then ['\\', 'r']
  else if c.toNat = 9 then ['\\', 't']
  else if c.toNat < 32 then ['\\', 'u', '0', '0', hexDigit (c.toNat / 16), hexDigit (c.toNat % 16)]
  else [c]

def stringText (s : String) : List Char := '"' :: s.toList.flatMap escapeChar ++ ['"']

def digits (n : ℕ) : List Char := (toString n).toList

def intText (n : ℤ) : List Char :=
  match n with
  | .ofNat m => digits m
  | .negSucc m => '-' :: digits (m + 1)

/-- A `numeric` value written out: zeros are appended for a positive exponent
and the point is set for a negative one.  Zero has no sign. -/
def numericText (negative : Bool) (coef : ℕ) (exp : ℤ) : List Char :=
  let ds := digits coef
  let magnitude :=
    match exp with
    | .ofNat e => if coef = 0 then ['0'] else ds ++ List.replicate e '0'
    | .negSucc e =>
      let scale := e + 1
      let padded := List.replicate (scale + 1 - ds.length) '0' ++ ds
      padded.take (padded.length - scale) ++ '.' :: padded.drop (padded.length - scale)
  if negative && coef != 0 then '-' :: magnitude else magnitude

mutual

def jsonbText : Json → List Char
  | .null => ['n', 'u', 'l', 'l']
  | .bool true => ['t', 'r', 'u', 'e']
  | .bool false => ['f', 'a', 'l', 's', 'e']
  | .int n => intText n
  | .decimal negative coef exp => numericText negative coef exp
  | .string s => stringText s
  | .array items => '[' :: itemsText items ++ [']']
  | .object fields => Char.ofNat 123 :: fieldsText fields ++ [Char.ofNat 125]

def itemsText : List Json → List Char
  | [] => []
  | [item] => jsonbText item
  | item :: items => jsonbText item ++ ',' :: ' ' :: itemsText items

/-- The fields of an object, separated by a comma and a blank. -/
def fieldsText : List (String × Json) → List Char
  | [] => []
  | [(name, value)] => stringText name ++ ':' :: ' ' :: jsonbText value
  | (name, value) :: fields =>
    stringText name ++ ':' :: ' ' :: jsonbText value ++ ',' :: ' ' :: fieldsText fields

end

/-- `octet_length(value::jsonb::text)`: the bytes of the text in UTF-8. -/
def octetLength (value : Json) : ℕ := ((jsonbText value).map Char.utf8Size).sum

example : octetLength (.object [("reason", .string "lease_lost")]) = 24 := by decide

end Json

abbrev Payload := List (String × Json)

end Renga
