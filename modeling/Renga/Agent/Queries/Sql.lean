import Renga.Lib.Sqlite
import Renga.Lib.Utf8

/-!
# `query.sql`: one statement that reads

`sql/1` of `agent/src/jobs/queries/sql.rs`: before osquery sees the text of a request, it is
kept to one statement without parameters that starts with `SELECT` or `WITH`.  The scanner
goes over the bytes of the text by index, as the source does; the number of bytes is enough
`fuel`.  A text is its characters, and a slice of it off a character boundary is a panic
(`Stop.panic`).
-/

namespace Renga.Agent.Queries.Sql

open Utf8

def maxSql : ℕ := 4096

/-- How a call ends without a result: it panics, or it fails the job. -/
inductive Stop where
  | panic
  | failed (reason : String)
  deriving DecidableEq

def sliceTo (text : List Char) (offset : ℕ) : Except Stop (List Char) :=
  match split text offset with
  | some both => .ok both.1
  | none => .error .panic

def sliceFrom (text : List Char) (offset : ℕ) : Except Stop (List Char) :=
  match split text offset with
  | some both => .ok both.2
  | none => .error .panic

/-- `bytes.windows(terminator.len()).position(|window| window == terminator)`. -/
def position (terminator : List UInt8) : List UInt8 → Option ℕ
  | [] => none
  | b :: bytes =>
    if terminator.isPrefixOf (b :: bytes) then some 0
    else (position terminator bytes).map (· + 1)

/-- `closing/3`: the index just past the terminator at or after an index, or the end. -/
def closing (bytes : List UInt8) (start : ℕ) (terminator : List UInt8) : ℕ :=
  match position terminator (bytes.drop (min start bytes.length)) with
  | some offset => start + offset + terminator.length
  | none => bytes.length

def isAsciiWhitespace (b : UInt8) : Bool := Sqlite.isOf " \t\n\x0c\r" b

/-- Where the next token starts, whether it may follow the end, and whether the end is here. -/
structure Reading where
  next : ℕ
  ignorable : Bool
  semicolon : Bool := false

def read (bytes : List UInt8) (i : ℕ) (b : UInt8) : Except Stop Reading :=
  if b = '-'.toUInt8 ∧ bytes[i + 1]? = some '-'.toUInt8 then
    .ok ⟨closing bytes (i + 2) ['\n'.toUInt8], true, false⟩
  else if b = '/'.toUInt8 ∧ bytes[i + 1]? = some '*'.toUInt8 then
    .ok ⟨closing bytes (i + 2) ['*'.toUInt8, '/'.toUInt8], true, false⟩
  else if Sqlite.isOf "'\"`" b then .ok ⟨closing bytes (i + 1) [b], false, false⟩
  else if b = '['.toUInt8 then .ok ⟨closing bytes (i + 1) [']'.toUInt8], false, false⟩
  else if b = ';'.toUInt8 then .ok ⟨i + 1, true, true⟩
  else if Sqlite.isOf "?:@$#" b then
    .error (.failed
      "invalid parameters: sql must not use parameters ($, :, @, #, or ?) outside quotes")
  else .ok ⟨i + 1, isAsciiWhitespace b, false⟩

/-- The loop of `single_statement/1`: the index of the first semicolon. -/
def scan (bytes : List UInt8) : ℕ → ℕ → Option ℕ → Except Stop (Option ℕ)
  | 0, _, finish => .ok finish
  | fuel + 1, i, finish =>
    match bytes[i]? with
    | none => .ok finish
    | some b =>
      match read bytes i b with
      | .error stop => .error stop
      | .ok reading =>
        let finish := if reading.semicolon then finish <|> some i else finish
        if finish.isSome ∧ ¬reading.ignorable then
          .error (.failed "invalid parameters: sql must be one statement")
        else scan bytes fuel reading.next finish

/-- `single_statement/1`: the text before the first semicolon that is outside a string, quoted
name, or comment. -/
def singleStatement (text : List Char) : Except Stop (List Char) := do
  let bytes := encode text
  let finish ← scan bytes bytes.length 0 none
  sliceTo text (finish.getD bytes.length)

/-- The loop of `first_keyword/1`: the index after leading white space and comments. -/
def skipBlanks (bytes : List UInt8) : ℕ → ℕ → ℕ
  | 0, i => i
  | fuel + 1, i =>
    if (bytes.drop i).take 2 = ['-'.toUInt8, '-'.toUInt8] then
      skipBlanks bytes fuel (closing bytes (i + 2) ['\n'.toUInt8])
    else if (bytes.drop i).take 2 = ['/'.toUInt8, '*'.toUInt8] then
      skipBlanks bytes fuel (closing bytes (i + 2) ['*'.toUInt8, '/'.toUInt8])
    else if bytes[i]?.any isAsciiWhitespace then skipBlanks bytes fuel (i + 1)
    else i

def isAsciiAlphabetic (c : Char) : Bool :=
  ('a' ≤ c && c ≤ 'z') || ('A' ≤ c && c ≤ 'Z')

/-- `text.find(p)`: the offset of the first character that meets a condition. -/
def find (p : Char → Bool) : List Char → Option ℕ
  | [] => none
  | c :: text => if p c then some 0 else (find p text).map (c.utf8Size + ·)

/-- `first_keyword/1`: the statement's first word, after any leading comments. -/
def firstKeyword (statement : List Char) : Except Stop (List Char) := do
  let bytes := encode statement
  let rest ← sliceFrom statement (skipBlanks bytes bytes.length 0)
  sliceTo rest ((find (!isAsciiAlphabetic ·) rest).getD (encode rest).length)

/-- `char::is_whitespace`: the characters with the property `White_Space`. -/
def isWhitespace (c : Char) : Bool :=
  (9 ≤ c.toNat && c.toNat ≤ 13) || c.toNat = 0x20 || c.toNat = 0x85 || c.toNat = 0xa0 ||
    c.toNat = 0x1680 || (0x2000 ≤ c.toNat && c.toNat ≤ 0x200a) || c.toNat = 0x2028 ||
    c.toNat = 0x2029 || c.toNat = 0x202f || c.toNat = 0x205f || c.toNat = 0x3000

def trim (text : List Char) : List Char :=
  ((text.dropWhile isWhitespace).reverse.dropWhile isWhitespace).reverse

/-- `sql/1`, of the text in the parameters: the request's one statement, without a trailing
semicolon. -/
def sql (text : List Char) : Except Stop (List Char) := do
  if text.length > maxSql then
    throw (.failed s!"invalid parameters: sql must be at most {maxSql} characters")
  let statement := trim (← singleStatement text)
  if statement = [] then throw (.failed "invalid parameters: sql must not be blank")
  let keyword ← firstKeyword statement
  if keyword.map Char.toUpper ≠ "SELECT".toList ∧ keyword.map Char.toUpper ≠ "WITH".toList then
    throw (.failed "refused by the agent's policy: sql must be a SELECT")
  return statement

end Renga.Agent.Queries.Sql
