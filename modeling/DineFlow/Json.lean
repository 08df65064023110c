import DineFlow.Utf16

namespace Json
open Utf16
set_option autoImplicit true

/-- A JSON value over a type of numbers. Texts are sequences of UTF-16 code units, and the members
of an object are in the order in which they are enumerated. -/
inductive Value (ν : Type) where
  | null
  | bool (b : Bool)
  | num (x : ν)
  | str (s : List UInt16)
  | arr (vs : List (Value ν))
  | obj (ms : List (List UInt16 × Value ν))

/-- How numbers are read and printed. -/
structure NumberFormat (ν : Type) where
  read : List Char → ν
  print : ν → List Char

/-- A whole number in the decimal system. -/
def decimal (n : Int) : List Char :=
  if n < 0 then '-' :: Nat.toDigits 10 n.natAbs else Nat.toDigits 10 n.natAbs

def hexDigits (n : Nat) : List Char :=
  [Nat.digitChar (n / 4096 % 16), Nat.digitChar (n / 256 % 16), Nat.digitChar (n / 16 % 16),
    Nat.digitChar (n % 16)]

/-- The characters that are escaped by a letter. -/
def shortEscapes : List (Char × Char) :=
  [('"', '"'), ('\\', '\\'), ('\x08', 'b'), ('\x0c', 'f'), ('\n', 'n'), ('\r', 'r'), ('\t', 't')]

/-- A part of a text inside quotes. A surrogate outside a pair is escaped. -/
def escape : Point → List Char
  | .char c =>
    match shortEscapes.find? fun e => e.1 = c with
    | some e => ['\\', e.2]
    | none => if c.toNat < 32 then '\\' :: 'u' :: hexDigits c.toNat else [c]
  | .lone u => '\\' :: 'u' :: hexDigits u.toNat

def quote (s : List UInt16) : List Char := '"' :: ((points s).flatMap escape ++ ['"'])

def commas : List (List Char) → List Char
  | [] => []
  | [t] => t
  | t :: ts => t ++ ',' :: commas ts

section Printing

variable (print : ν → List Char)

mutual

/-- `JSON.stringify`, whose result has no surrogate outside a pair. -/
def stringify : Value ν → List Char
  | .null => ['n', 'u', 'l', 'l']
  | .bool true => ['t', 'r', 'u', 'e']
  | .bool false => ['f', 'a', 'l', 's', 'e']
  | .num x => print x
  | .str s => quote s
  | .arr vs => '[' :: (commas (elementTexts vs) ++ [']'])
  | .obj ms => '{' :: (commas (memberTexts ms) ++ ['}'])

def elementTexts : List (Value ν) → List (List Char)
  | [] => []
  | v :: vs => stringify v :: elementTexts vs

def memberTexts : List (List UInt16 × Value ν) → List (List Char)
  | [] => []
  | m :: ms => memberText m :: memberTexts ms

def memberText : List UInt16 × Value ν → List Char
  | (k, v) => quote k ++ ':' :: stringify v

end

end Printing

def isSpace (c : Char) : Bool := c = ' ' || c = '\t' || c = '\n' || c = '\r'

def skip (cs : List Char) : List Char := cs.dropWhile isSpace

def hexValue (c : Char) : Option Nat :=
  if 48 ≤ c.toNat ∧ c.toNat ≤ 57 then some (c.toNat - 48)
  else if 97 ≤ c.toNat ∧ c.toNat ≤ 102 then some (c.toNat - 87)
  else if 65 ≤ c.toNat ∧ c.toNat ≤ 70 then some (c.toNat - 55)
  else none

def hexUnit (a b c d : Char) : Option UInt16 :=
  match hexValue a, hexValue b, hexValue c, hexValue d with
  | some a, some b, some c, some d => some (UInt16.ofNat (((a * 16 + b) * 16 + c) * 16 + d))
  | _, _, _, _ => none

/-- The character that a letter stands for after a backslash. -/
def unescape (c : Char) : Option Char :=
  if c = '/' then some '/' else (shortEscapes.find? fun e => e.2 = c).map Prod.fst

/-- The rest of a text in quotes, and what comes after it. -/
def parseString : List Char → Option (List UInt16 × List Char)
  | [] => none
  | '"' :: cs => some ([], cs)
  | '\\' :: 'u' :: a :: b :: c :: d :: cs =>
    match hexUnit a b c d with
    | some u => (parseString cs).map fun r => (u :: r.1, r.2)
    | none => none
  | '\\' :: c :: cs =>
    match unescape c with
    | some c => (parseString cs).map fun r => (units c ++ r.1, r.2)
    | none => none
  | c :: cs =>
    if c.toNat < 32 ∨ c = '\\' then none
    else (parseString cs).map fun r => (units c ++ r.1, r.2)

def digitsOf (cs : List Char) : List Char × List Char :=
  (cs.takeWhile Char.isDigit, cs.dropWhile Char.isDigit)

def lexInteger : List Char → Option (List Char × List Char)
  | [] => none
  | c :: cs =>
    if c = '0' then some (['0'], cs)
    else if c.isDigit then some (c :: (digitsOf cs).1, (digitsOf cs).2)
    else none

/-- The digits after a sign that has been read, of which there must be one. -/
def lexDigits (sign : List Char) (cs : List Char) : Option (List Char × List Char) :=
  if (digitsOf cs).1 = [] then none else some (sign ++ (digitsOf cs).1, (digitsOf cs).2)

def lexFraction : List Char → Option (List Char × List Char)
  | '.' :: cs => lexDigits ['.'] cs
  | cs => some ([], cs)

def lexExponent : List Char → Option (List Char × List Char)
  | c :: cs =>
    if c = 'e' ∨ c = 'E' then
      match cs with
      | '+' :: cs => lexDigits [c, '+'] cs
      | '-' :: cs => lexDigits [c, '-'] cs
      | cs => lexDigits [c] cs
    else some ([], c :: cs)
  | [] => some ([], [])

def lexUnsigned (cs : List Char) : Option (List Char × List Char) := do
  let (i, cs) ← lexInteger cs
  let (f, cs) ← lexFraction cs
  let (e, cs) ← lexExponent cs
  return (i ++ (f ++ e), cs)

def lexNumber : List Char → Option (List Char × List Char)
  | '-' :: cs => (lexUnsigned cs).map fun r => ('-' :: r.1, r.2)
  | cs => lexUnsigned cs

/-- The number that a key of an object stands for as the index of an array. -/
def arrayIndex (k : List UInt16) : Option Nat :=
  let cs := k.map fun u => Char.ofNat u.toNat
  let n := cs.foldl (fun n c => n * 10 + (c.toNat - 48)) 0
  if cs ≠ [] ∧ cs.all Char.isDigit ∧ (cs = ['0'] ∨ cs.head? ≠ some '0') ∧ n < 2 ^ 32 - 1 then some n
  else none

/-- A member is set: an old one of that key keeps its place, and the keys that are indices come
first, in their order. -/
def put (ms : List (List UInt16 × Value ν)) (m : List UInt16 × Value ν) :
    List (List UInt16 × Value ν) :=
  if ms.any fun x => x.1 = m.1 then ms.map fun x => if x.1 = m.1 then m else x
  else
    match arrayIndex m.1 with
    | none => ms ++ [m]
    | some i =>
      ms.takeWhile (fun x => (arrayIndex x.1).any (· < i)) ++
        m :: ms.dropWhile fun x => (arrayIndex x.1).any (· < i)

def ofMembers (ms : List (List UInt16 × Value ν)) : List (List UInt16 × Value ν) :=
  ms.foldl put []

/-- What is separated by commas, up to a closing bracket. -/
def items (item : List Char → Option (α × List Char)) (close : Char) :
    Nat → List Char → Option (List α × List Char)
  | 0, _ => none
  | n + 1, cs =>
    match item cs with
    | none => none
    | some (a, cs) =>
      match skip cs with
      | [] => none
      | c :: cs =>
        if c = ',' then (items item close n cs).map fun r => (a :: r.1, r.2)
        else if c = close then some ([a], cs)
        else none

def bracketed (item : List Char → Option (α × List Char)) (close : Char) (n : Nat)
    (cs : List Char) : Option (List α × List Char) :=
  match skip cs with
  | [] => none
  | c :: cs => if c = close then some ([], cs) else items item close n (c :: cs)

section Reading

variable (read : List Char → ν)

def parseAtom : List Char → Option (Value ν × List Char)
  | 'n' :: 'u' :: 'l' :: 'l' :: cs => some (.null, cs)
  | 't' :: 'r' :: 'u' :: 'e' :: cs => some (.bool true, cs)
  | 'f' :: 'a' :: 'l' :: 's' :: 'e' :: cs => some (.bool false, cs)
  | cs => (lexNumber cs).map fun r => (.num (read r.1), r.2)

def parseMember (value : List Char → Option (Value ν × List Char)) (cs : List Char) :
    Option ((List UInt16 × Value ν) × List Char) :=
  match skip cs with
  | [] => none
  | c :: cs =>
    if c = '"' then
      match parseString cs with
      | none => none
      | some (k, cs) =>
        match skip cs with
        | [] => none
        | c :: cs => if c = ':' then (value cs).map fun r => ((k, r.1), r.2) else none
    else none

/-- The value at the front of a text; the first argument bounds its depth. -/
def parseValue : Nat → List Char → Option (Value ν × List Char)
  | 0, _ => none
  | n + 1, cs =>
    match skip cs with
    | [] => none
    | c :: cs =>
      if c = '"' then (parseString cs).map fun r => (.str r.1, r.2)
      else if c = '[' then (bracketed (parseValue n) ']' n cs).map fun r => (.arr r.1, r.2)
      else if c = '{' then
        (bracketed (parseMember (parseValue n)) '}' n cs).map fun r => (.obj (ofMembers r.1), r.2)
      else parseAtom read (c :: cs)

/-- `JSON.parse`; `none` is a syntax error. -/
def parse (cs : List Char) : Option (Value ν) :=
  match parseValue read (cs.length + 1) cs with
  | none => none
  | some (v, rest) => if skip rest = [] then some v else none

end Reading

end Json
