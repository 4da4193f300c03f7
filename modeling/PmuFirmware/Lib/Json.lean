import PmuFirmware.Lib.CString

/-!
# JSON values

The values a JSON library builds and the accessors its callers use. Access is total, as in the
library: reading a missing member, or a member of a missing value, gives nothing.
-/

namespace CLib

inductive Json
  | null
  | bool (b : Bool)
  | number (value : ℚ)
  | string (s : CStr)
  | array (items : List Json)
  | object (members : List (CStr × Json))

namespace Json

def isArray : Json → Bool
  | .array _ => true
  | _ => false

def isObject : Json → Bool
  | .object _ => true
  | _ => false

/-- The text of a string; nothing for any other value. -/
def valuestring : Json → Option CStr
  | .string s => some s
  | _ => none

/-- A number as a 32-bit `int`: truncated towards zero and saturated. -/
def valueint : Json → Int
  | .number value =>
    max (-2 ^ 31) (min (2 ^ 31 - 1) (if 0 ≤ value then ⌊value⌋ else ⌈value⌉))
  | _ => 0

/-- The children of a value, in order. -/
def children : Json → List Json
  | .array items => items
  | .object members => members.map Prod.snd
  | _ => []

def getArraySize (j : Json) : Nat := j.children.length

def getArrayItem (j : Json) (index : Nat) : Option Json := j.children[index]?

/-- Member names are compared without regard to the case of ASCII letters. -/
def sameName (a b : CStr) : Bool := a.map Char.toLower == b.map Char.toLower

/-- The first member of an object with the given name. -/
def getObjectItem (j : Json) (name : CStr) : Option Json :=
  match j with
  | .object members => (members.find? fun m => sameName m.1 name).map Prod.snd
  | _ => none

/-- An integer is read back as itself as long as it fits an `int`. -/
theorem valueint_intCast {n : Int} (hlo : -2 ^ 31 ≤ n) (hhi : n < 2 ^ 31) :
    (number (n : ℚ)).valueint = n := by
  have htrunc : (if (0 : ℚ) ≤ n then ⌊(n : ℚ)⌋ else ⌈(n : ℚ)⌉) = n := by simp
  rw [valueint, htrunc]
  omega

/-! ### Printing -/

def hexDigit (n : Nat) : Char := "0123456789abcdef".toList.getD n '0'

def escapeChar (c : Char) : CStr :=
  if c = '"' ∨ c = '\\' then ['\\', c]
  else if c = '\x08' then "\\b".toList
  else if c = '\x0c' then "\\f".toList
  else if c = '\n' then "\\n".toList
  else if c = '\r' then "\\r".toList
  else if c = '\t' then "\\t".toList
  else if c.toNat < 32 then
    "\\u00".toList ++ [hexDigit (c.toNat / 16), hexDigit (c.toNat % 16)]
  else [c]

def quote (s : CStr) : CStr := '"' :: (s.flatMap escapeChar ++ ['"'])

/-- A number without fraction; other numbers are not printed here. -/
def printInt (value : ℚ) : Option CStr :=
  if value.den = 1 then
    some (if 0 ≤ value.num then Nat.toDigits 10 value.num.toNat
      else '-' :: Nat.toDigits 10 value.num.natAbs)
  else none

mutual

/-- The text of a value without white space. -/
def printUnformatted : Json → Option CStr
  | .null => some "null".toList
  | .bool b => some (if b then "true".toList else "false".toList)
  | .number value => printInt value
  | .string s => some (quote s)
  | .array items => (printItems items).map fun text => '[' :: (text ++ [']'])
  | .object members => (printMembers members).map fun text => '\x7b' :: (text ++ ['\x7d'])

def printItems : List Json → Option CStr
  | [] => some []
  | [item] => printUnformatted item
  | item :: next :: rest => do
    let head ← printUnformatted item
    let tail ← printItems (next :: rest)
    return head ++ ',' :: tail

def printMembers : List (CStr × Json) → Option CStr
  | [] => some []
  | [(name, item)] => (printUnformatted item).map fun text => quote name ++ ':' :: text
  | (name, item) :: next :: rest => do
    let head ← printUnformatted item
    let tail ← printMembers (next :: rest)
    return quote name ++ ':' :: (head ++ ',' :: tail)

end

/-! ### Building when memory can run out -/

/-- The calls that allocate, by the path to the value they are for, the innermost index first. -/
inductive BuildCall
  | createContainer (path : List Nat)
  | createValue (path : List Nat)
  | addMember (path : List Nat)
  deriving DecidableEq

/-- Only the call for an array or an object is checked by those who build a value. -/
def BuildCall.isChecked : BuildCall → Bool
  | createContainer _ => true
  | createValue _ => false
  | addMember _ => false

section Build

variable (fails : BuildCall → Bool)

def createValue (path : List Nat) (j : Json) : Option Json :=
  if fails (.createValue path) then none else some j

mutual

/-- What is built of a value. A call that is checked ends the building when it fails; a value that is not
created is missing, and so is one that is not added to its object. -/
def build (path : List Nat) : Json → Option (Option Json)
  | .null => some (createValue fails path .null)
  | .bool b => some (createValue fails path (.bool b))
  | .number value => some (createValue fails path (.number value))
  | .string s => some (createValue fails path (.string s))
  | .array items =>
    if fails (.createContainer path) then none
    else (buildItems path 0 items).map fun items => some (.array items)
  | .object members =>
    if fails (.createContainer path) then none
    else (buildMembers path 0 members).map fun members => some (.object members)

def buildItems (path : List Nat) (index : Nat) : List Json → Option (List Json)
  | [] => some []
  | item :: rest => do
    let item ← build (index :: path) item
    let rest ← buildItems path (index + 1) rest
    return item.toList ++ rest

def buildMembers (path : List Nat) (index : Nat) :
    List (CStr × Json) → Option (List (CStr × Json))
  | [] => some []
  | (name, item) :: rest => do
    let item ← build (index :: path) item
    let rest ← buildMembers path (index + 1) rest
    return (if fails (.addMember (index :: path)) then [] else item.toList.map fun item => (name, item))
      ++ rest

end

end Build

mutual

/-- The calls with which a value is built, in order. -/
def buildCalls (path : List Nat) : Json → List BuildCall
  | .null => [.createValue path]
  | .bool _ => [.createValue path]
  | .number _ => [.createValue path]
  | .string _ => [.createValue path]
  | .array items => .createContainer path :: itemCalls path 0 items
  | .object members => .createContainer path :: memberCalls path 0 members

def itemCalls (path : List Nat) (index : Nat) : List Json → List BuildCall
  | [] => []
  | item :: rest => buildCalls (index :: path) item ++ itemCalls path (index + 1) rest

def memberCalls (path : List Nat) (index : Nat) : List (CStr × Json) → List BuildCall
  | [] => []
  | (_, item) :: rest =>
    buildCalls (index :: path) item ++ .addMember (index :: path) :: memberCalls path (index + 1) rest

end

section Build

variable {fails : BuildCall → Bool}

/-- A call that fails and is checked. -/
def EndsBuilding (fails : BuildCall → Bool) (calls : List BuildCall) : Prop :=
  ∃ call ∈ calls, call.isChecked = true ∧ fails call = true

theorem endsBuilding_append {calls later : List BuildCall} :
    EndsBuilding fails (calls ++ later) ↔ EndsBuilding fails calls ∨ EndsBuilding fails later := by
  simp only [EndsBuilding, List.mem_append, or_and_right, exists_or]

theorem endsBuilding_cons {call : BuildCall} {later : List BuildCall} :
    EndsBuilding fails (call :: later)
      ↔ call.isChecked = true ∧ fails call = true ∨ EndsBuilding fails later := by
  simp only [EndsBuilding, List.exists_mem_cons_iff]

theorem not_endsBuilding_value (path : List Nat) : ¬ EndsBuilding fails [.createValue path] := by
  rintro ⟨call, hcall, hchecked, -⟩
  rw [List.mem_singleton.mp hcall] at hchecked
  cases hchecked

mutual

/-- Building ends when a call that is checked fails, and in no other case. -/
theorem build_eq_none_iff (path : List Nat) (j : Json) :
    build fails path j = none ↔ EndsBuilding fails (buildCalls path j) := by
  cases j with
  | null => exact iff_of_false (Option.some_ne_none _) (not_endsBuilding_value path)
  | bool b => exact iff_of_false (Option.some_ne_none _) (not_endsBuilding_value path)
  | number value => exact iff_of_false (Option.some_ne_none _) (not_endsBuilding_value path)
  | string s => exact iff_of_false (Option.some_ne_none _) (not_endsBuilding_value path)
  | array items =>
      rw [build, buildCalls, endsBuilding_cons, ← buildItems_eq_none_iff path 0 items]
      cases hcreate : fails (.createContainer path) <;> simp [BuildCall.isChecked]
  | object members =>
      rw [build, buildCalls, endsBuilding_cons, ← buildMembers_eq_none_iff path 0 members]
      cases hcreate : fails (.createContainer path) <;> simp [BuildCall.isChecked]

theorem buildItems_eq_none_iff (path : List Nat) (index : Nat) (items : List Json) :
    buildItems fails path index items = none ↔ EndsBuilding fails (itemCalls path index items) := by
  cases items with
  | nil => simp [buildItems, itemCalls, EndsBuilding]
  | cons item rest =>
      rw [buildItems, itemCalls, endsBuilding_append, ← build_eq_none_iff (index :: path) item,
        ← buildItems_eq_none_iff path (index + 1) rest]
      cases build fails (index :: path) item with
      | none => simp
      | some built => cases buildItems fails path (index + 1) rest <;> simp

theorem buildMembers_eq_none_iff (path : List Nat) (index : Nat) (members : List (CStr × Json)) :
    buildMembers fails path index members = none
      ↔ EndsBuilding fails (memberCalls path index members) := by
  cases members with
  | nil => simp [buildMembers, memberCalls, EndsBuilding]
  | cons member rest =>
      rw [buildMembers, memberCalls, endsBuilding_append, endsBuilding_cons,
        ← build_eq_none_iff (index :: path) member.2, ← buildMembers_eq_none_iff path (index + 1) rest]
      cases build fails (index :: path) member.2 with
      | none => simp
      | some built =>
          cases buildMembers fails path (index + 1) rest <;> simp [BuildCall.isChecked]

end

mutual

/-- Without a failure the whole value is built. -/
theorem build_complete (path : List Nat) (j : Json)
    (h : ∀ call ∈ buildCalls path j, fails call = false) : build fails path j = some (some j) := by
  cases j with
  | null => simp [build, createValue, h _ List.mem_cons_self]
  | bool b => simp [build, createValue, h _ List.mem_cons_self]
  | number value => simp [build, createValue, h _ List.mem_cons_self]
  | string s => simp [build, createValue, h _ List.mem_cons_self]
  | array items =>
      rw [buildCalls, List.forall_mem_cons] at h
      simp [build, h.1, buildItems_complete path 0 items h.2]
  | object members =>
      rw [buildCalls, List.forall_mem_cons] at h
      simp [build, h.1, buildMembers_complete path 0 members h.2]

theorem buildItems_complete (path : List Nat) (index : Nat) (items : List Json)
    (h : ∀ call ∈ itemCalls path index items, fails call = false) :
    buildItems fails path index items = some items := by
  cases items with
  | nil => rfl
  | cons item rest =>
      rw [itemCalls, List.forall_mem_append] at h
      simp [buildItems, build_complete (index :: path) item h.1,
        buildItems_complete path (index + 1) rest h.2]

theorem buildMembers_complete (path : List Nat) (index : Nat) (members : List (CStr × Json))
    (h : ∀ call ∈ memberCalls path index members, fails call = false) :
    buildMembers fails path index members = some members := by
  cases members with
  | nil => rfl
  | cons member rest =>
      rw [memberCalls, List.forall_mem_append, List.forall_mem_cons] at h
      simp [buildMembers, build_complete (index :: path) member.2 h.1, h.2.1,
        buildMembers_complete path (index + 1) rest h.2.2]

end

end Build

end Json

end CLib
