import Hypertext.Json.Number

/-!
# JSON values

The value type of the test formats, with a printer. Members of an object keep the order and the
repetitions of their source; `Json.canonical` sorts them and lets the last of a repeated name win.
-/

namespace Hypertext

inductive Json where
  | null
  | bool (value : Bool)
  | number (value : JsonNumber)
  | string (value : String)
  | array (items : List Json)
  | object (members : List (String × Json))

namespace Json

def nat (n : Nat) : Json := .number (.whole n)

/-- A text, or null where it is missing. -/
def text? (s : Option String) : Json := (s.map Json.string).getD .null

def nat? (n : Option Nat) : Json := (n.map Json.nat).getD .null

def strings (items : List String) : Json := .array (items.map .string)

/-! ## Comparison -/

mutual

/-- Equality of values, member by member and in order. -/
def same : Json → Json → Bool
  | .null, .null => true
  | .bool a, .bool b => a == b
  | .number a, .number b => a == b
  | .string a, .string b => a == b
  | .array as, .array bs => sameItems as bs
  | .object as, .object bs => sameMembers as bs
  | _, _ => false

def sameItems : List Json → List Json → Bool
  | [], [] => true
  | a :: as, b :: bs => same a b && sameItems as bs
  | _, _ => false

def sameMembers : List (String × Json) → List (String × Json) → Bool
  | [], [] => true
  | (k, a) :: as, (l, b) :: bs => k == l && same a b && sameMembers as bs
  | _, _ => false

end

/-! ## Canonical objects -/

/-- Adds a member to a list that is sorted by name, in place of one of the same name. -/
def insertMember (name : String) (value : Json) : List (String × Json) → List (String × Json)
  | [] => [(name, value)]
  | (k, v) :: rest =>
    if name = k then (name, value) :: rest
    else if name < k then (name, value) :: (k, v) :: rest
    else (k, v) :: insertMember name value rest

/-- An object with sorted names; of members with one name the last stays. -/
def ofMembers (members : List (String × Json)) : Json :=
  .object (members.foldl (fun sorted m => insertMember m.1 m.2 sorted) [])

mutual

/-- The value with every object in it brought to the form of `ofMembers`. -/
def canonical : Json → Json
  | .array items => .array (canonicalItems items)
  | .object members => ofMembers (canonicalMembers members)
  | value => value

def canonicalItems : List Json → List Json
  | [] => []
  | v :: rest => canonical v :: canonicalItems rest

def canonicalMembers : List (String × Json) → List (String × Json)
  | [] => []
  | (k, v) :: rest => (k, canonical v) :: canonicalMembers rest

end

mutual

/-- Applies `f` to every text of a value, names of members included, and puts objects in the form of
`ofMembers`. -/
def mapStrings (f : String → String) : Json → Json
  | .string s => .string (f s)
  | .array items => .array (mapItems f items)
  | .object members => ofMembers (mapMembers f members)
  | value => value

def mapItems (f : String → String) : List Json → List Json
  | [] => []
  | v :: rest => mapStrings f v :: mapItems f rest

def mapMembers (f : String → String) : List (String × Json) → List (String × Json)
  | [] => []
  | (k, v) :: rest => (f k, mapStrings f v) :: mapMembers f rest

end

mutual

/-- How many arrays and objects stand around the innermost value. -/
def depth : Json → Nat
  | .array items => depthOfItems items + 1
  | .object members => depthOfMembers members + 1
  | _ => 0

def depthOfItems : List Json → Nat
  | [] => 0
  | v :: rest => max (depth v) (depthOfItems rest)

def depthOfMembers : List (String × Json) → Nat
  | [] => 0
  | (_, v) :: rest => max (depth v) (depthOfMembers rest)

end

/-! ## Reading parts -/

/-- The value of the last member of this name. -/
def member? (value : Json) (name : String) : Option Json :=
  match value with
  | .object members => (members.reverse.find? fun m => m.1 == name).map (·.2)
  | _ => none

def asString? : Json → Option String
  | .string s => some s
  | _ => none

def asBool? : Json → Option Bool
  | .bool b => some b
  | _ => none

def asArray? : Json → Option (List Json)
  | .array items => some items
  | _ => none

/-- A whole number that is not negative. -/
def asNat? : Json → Option Nat
  | .number (.whole (.ofNat n)) => some n
  | _ => none

/-! ## Printing -/

/-- Two hexadecimal digits of a control character. -/
def hexPair (n : Nat) : String :=
  String.ofList [Nat.digitChar (n / 16 % 16), Nat.digitChar (n % 16)]

/-- A character inside a quoted text: the quote, the backslash and controls are escaped. -/
def printChar (out : String) (c : Char) : String :=
  if c = '\x22' then out ++ "\\\""
  else if c = '\\' then out ++ "\\\\"
  else if c.toNat < 0x20 then out ++ "\\u00" ++ hexPair c.toNat
  else out.push c

def printString (out : String) (s : String) : String :=
  (s.toList.foldl printChar (out.push '\x22')).push '\x22'

mutual

/-- Writes a value after `out`, without blanks. -/
def printTo (out : String) : Json → String
  | .null => out ++ "null"
  | .bool b => out ++ (if b then "true" else "false")
  | .number n => out ++ n.print
  | .string s => printString out s
  | .array [] => out ++ "[]"
  | .array (v :: rest) => (printItems (printTo (out.push '[') v) rest).push ']'
  | .object [] => out ++ "\x7b\x7d"
  | .object ((k, v) :: rest) =>
    (printMembers (printTo ((printString (out.push '\x7b') k).push ':') v) rest).push '\x7d'

def printItems (out : String) : List Json → String
  | [] => out
  | v :: rest => printItems (printTo (out.push ',') v) rest

def printMembers (out : String) : List (String × Json) → String
  | [] => out
  | (k, v) :: rest => printMembers (printTo ((printString (out.push ',') k).push ':') v) rest

end

/-- The text of a value on one line. -/
def print (value : Json) : String := printTo "" value

end Json

end Hypertext
