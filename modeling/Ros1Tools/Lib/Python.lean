import Mathlib.Data.List.DropRight
import Ros1Tools.Lib.BinaryFloat

/-!
# Python objects and exceptions

The objects that plain data is made of in Python, and exceptions told apart as far
as the `except` clauses of a program can tell them: the builtin class that a clause
names, the name of the exact class, and the text.

`json.loads` calls hooks of its caller for the constants that JSON does not have and
for the objects, whose members it hands over as a list of pairs.  `Parsed.build` is
that part of it; what text a tree is read from is left open.
-/

namespace Ros1Tools.Lib.Python

/-! ## Exceptions -/

/-- The builtin class an `except` clause names.  `other` stands for every other subclass
of `Exception`. -/
inductive ExceptionKind where
  | valueError
  | typeError
  | keyError
  | osError
  | recursionError
  | other
deriving DecidableEq, Repr

/-- An exception: `name` is `type(exc).__name__` and `text` is `str(exc)`. -/
structure Exception where
  kind : ExceptionKind
  name : String
  text : String
deriving DecidableEq, Repr

def valueError (text : String) : Exception := ⟨.valueError, "ValueError", text⟩

def typeError (text : String) : Exception := ⟨.typeError, "TypeError", text⟩

/-- The text of a `KeyError` is the `repr` of the key. -/
def keyError (key : String) : Exception := ⟨.keyError, "KeyError", "'" ++ key ++ "'"⟩

def attributeError (text : String) : Exception := ⟨.other, "AttributeError", text⟩

def overflowError (text : String) : Exception := ⟨.other, "OverflowError", text⟩

def recursionError : Exception :=
  ⟨.recursionError, "RecursionError", "maximum recursion depth exceeded"⟩

/-! ## Text -/

/-- `text.startswith(lead)`. -/
def startsWith (text lead : String) : Bool := lead.toList.isPrefixOf text.toList

/-- `text.endswith(tail)`. -/
def endsWith (text tail : String) : Bool := tail.toList.isSuffixOf text.toList

/-- `c.isspace()`. -/
def isSpace (c : Char) : Bool :=
  let n := c.toNat
  (9 ≤ n && n ≤ 13) || (28 ≤ n && n ≤ 32) || n == 133 || n == 160 || n == 5760 ||
    (8192 ≤ n && n ≤ 8202) || n == 8232 || n == 8233 || n == 8239 || n == 8287 || n == 12288

def lstripBy (p : Char → Bool) (text : String) : String := String.ofList (text.toList.dropWhile p)

def rstripBy (p : Char → Bool) (text : String) : String :=
  String.ofList (text.toList.reverse.dropWhile p).reverse

/-- `text.strip()`. -/
def strip (text : String) : String := rstripBy isSpace (lstripBy isSpace text)

/-- `text.lower()`, as far as the letters of ASCII go. -/
def lower (text : String) : String := String.ofList (text.toList.map Char.toLower)

theorem startsWith_iff {text lead : String} :
    startsWith text lead = true ↔ ∃ rest, text.toList = lead.toList ++ rest := by
  rw [startsWith, List.isPrefixOf_iff_prefix]
  constructor
  · rintro ⟨rest, h⟩
    exact ⟨rest, h.symm⟩
  · rintro ⟨rest, h⟩
    exact ⟨rest, h.symm⟩

/-- Text that neither begins nor ends with a space is stripped already. -/
theorem strip_of_not_isSpace {c d : Char} {cs : List Char} (hc : isSpace c = false)
    (hd : isSpace d = false) :
    strip (String.ofList (c :: (cs ++ [d]))) = String.ofList (c :: (cs ++ [d])) := by
  simp [strip, lstripBy, rstripBy, hc, hd]

theorem toList_strip (text : String) :
    (strip text).toList = (text.toList.dropWhile isSpace).rdropWhile isSpace := by
  rw [strip, rstripBy, lstripBy, String.toList_ofList, String.toList_ofList]
  rfl

/-- Stripped text is not stripped further. -/
theorem strip_strip (text : String) : strip (strip text) = strip text := by
  rw [← String.toList_inj, toList_strip (strip text), toList_strip text]
  generalize hfront : text.toList.dropWhile isSpace = front
  have hhead : (front.rdropWhile isSpace).dropWhile isSpace = front.rdropWhile isSpace := by
    have hself : front.dropWhile isSpace = front := hfront ▸ List.dropWhile_idempotent _ _
    cases hstripped : front.rdropWhile isSpace with
    | nil => rfl
    | cons c cs =>
        -- The first character is the one of the front part, which is no space.
        obtain ⟨back, hback⟩ := hstripped ▸ List.rdropWhile_prefix isSpace (l := front)
        rw [← hback] at hself
        refine List.dropWhile_cons_of_neg fun hc => ?_
        have hlength := congrArg List.length hself
        rw [List.cons_append, List.dropWhile_cons_of_pos hc, List.length_cons] at hlength
        have hle := (List.dropWhile_suffix (l := cs ++ back) isSpace).length_le
        omega
  rw [hhead, List.rdropWhile_idempotent]

/-! ## Objects -/

/-- Plain data.  A dictionary is the list of its members in the order of insertion, and
`object` is an object of any other class. -/
inductive Value where
  | null
  | bool (b : Bool)
  | int (n : Int)
  | float (x : Double)
  | str (text : String)
  | list (items : List Value)
  | dict (members : List (String × Value))
  | object (typeName : String)

namespace Value

/-- `value.get(name)` of a dictionary. -/
def get (members : List (String × Value)) (name : String) : Value :=
  (members.lookup name).getD .null

/-- The text, if `isinstance(value, str)`. -/
def asStr : Value → Option String
  | str text => some text
  | _ => none

/-- The members, if `isinstance(value, dict)`. -/
def asDict : Value → Option (List (String × Value))
  | dict members => some members
  | _ => none

/-- The number, if `type(value) is int`, which a Boolean is not. -/
def asInt : Value → Option Int
  | int n => some n
  | _ => none

/-- The items, if `isinstance(value, list)`. -/
def asList : Value → Option (List Value)
  | list items => some items
  | _ => none

/-- The texts of a list that holds nothing else. -/
def asStrings (value : Value) : Option (List String) := value.asList.bind (·.mapM asStr)

/-- `bool(value)`. -/
def truthy : Value → Bool
  | null => false
  | bool b => b
  | int n => n != 0
  | float x => x.scaled != 0
  | str text => text != ""
  | list items => !items.isEmpty
  | dict members => !members.isEmpty
  | object _ => true

/-- `value == n`.  A Boolean is the number 0 or 1. -/
def equalsInt (n : Int) : Value → Bool
  | bool b => n == if b then 1 else 0
  | int m => m == n
  | float x => !x.isNaN && x.scaled == n * 2 ^ Format.binary64.unit
  | _ => false

/-- `value or other`. -/
def orElse (value other : Value) : Value := if value.truthy then value else other

/-- `name in members`. -/
def hasKey (members : List (String × Value)) (name : String) : Bool :=
  (members.lookup name).isSome

/-- `members.get(name, other)`. -/
def getOr (members : List (String × Value)) (name : String) (other : Value) : Value :=
  (members.lookup name).getD other

/-- `members[name]`. -/
def item (members : List (String × Value)) (name : String) : Except Exception Value :=
  match members.lookup name with
  | some value => .ok value
  | none => .error (keyError name)

/-- `type(value).__name__`. -/
def typeName : Value → String
  | null => "NoneType"
  | bool _ => "bool"
  | int _ => "int"
  | float _ => "float"
  | str _ => "str"
  | list _ => "list"
  | dict _ => "dict"
  | object name => name

/-- `value[name]` for any object. -/
def subscript (value : Value) (name : String) : Except Exception Value :=
  match value with
  | dict members => item members name
  | str _ => .error (typeError "string indices must be integers")
  | list _ => .error (typeError "list indices must be integers or slices, not str")
  | other => .error (typeError ("'" ++ other.typeName ++ "' object is not subscriptable"))

/-- The members of the object that `method` of dictionaries is called on. -/
def dictFor (method : String) : Value → Except Exception (List (String × Value))
  | dict members => .ok members
  | other => .error (attributeError
      ("'" ++ other.typeName ++ "' object has no attribute '" ++ method ++ "'"))

/-- The text that `method` of texts is called on. -/
def strFor (method : String) : Value → Except Exception String
  | str text => .ok text
  | other => .error (attributeError
      ("'" ++ other.typeName ++ "' object has no attribute '" ++ method ++ "'"))

/-- The items that a `for` loop over `value or []` runs through.  A dictionary or a text
runs through texts. -/
def iterate : Value → Except Exception (List Value)
  | list items => .ok items
  | dict members => .ok (members.map fun member => str member.1)
  | str text => .ok (text.toList.map fun c => str c.toString)
  | other =>
      if other.truthy then
        .error (typeError ("'" ++ other.typeName ++ "' object is not iterable"))
      else .ok []

/-- `members[name] = value`: a new key is inserted last. -/
def setItem (name : String) (value : Value) :
    List (String × Value) → List (String × Value)
  | [] => [(name, value)]
  | (key, old) :: rest =>
      if key = name then (key, value) :: rest else (key, old) :: setItem name value rest

theorem lookup_setItem (name key : String) (value : Value) (members : List (String × Value)) :
    (setItem name value members).lookup key =
      if key = name then some value else members.lookup key := by
  induction members with
  | nil =>
      by_cases h : key = name
      · simp [setItem, h]
      · simp [setItem, h]
  | cons member members ih =>
      obtain ⟨first, old⟩ := member
      rw [setItem]
      by_cases hfirst : first = name
      · subst hfirst
        rw [if_pos rfl, List.lookup_cons, List.lookup_cons]
        by_cases h : key = first
        · simp [h]
        · simp [h, beq_eq_false_iff_ne.mpr h]
      · rw [if_neg hfirst, List.lookup_cons, List.lookup_cons]
        by_cases h : key = first
        · subst h
          simp [hfirst]
        · rw [beq_eq_false_iff_ne.mpr h]
          exact ih

theorem asStrings_list_map_str (texts : List String) :
    asStrings (list (texts.map str)) = some texts := by
  induction texts with
  | nil => rfl
  | cons text texts ih =>
      have htail : (texts.map str).mapM asStr = some texts := ih
      simp [asStrings, asList, List.mapM_cons, asStr, htail]

end Value

/-! ## Numbers -/

/-- An object whose type is `int` or `float`. -/
inductive Number where
  | int (n : Int)
  | float (x : Double)
deriving DecidableEq

namespace Number

def value : Number → Value
  | int n => .int n
  | float x => .float x

/-- `float(number)`. -/
def toDouble : Number → Double
  | int n => Binary.ofInt .binary64 n
  | float x => x

/-- Whether the number is neither infinite nor a NaN. -/
def isFinite : Number → Bool
  | int _ => true
  | float x => x.isFinite

/-- The `float` that the functions of `math` convert their argument to, which refuses
integers that are too large. -/
def convert : Number → Except Exception Double
  | int n =>
      if (Binary.ofInt .binary64 n).isFinite then .ok (.ofInt .binary64 n)
      else .error (overflowError "int too large to convert to float")
  | float x => .ok x

/-- `low <= number <= high`. -/
def between (low high : Int) : Number → Bool
  | int n => low ≤ n && n ≤ high
  | float x =>
      !x.isNaN && low * 2 ^ Format.binary64.unit ≤ x.scaled &&
        x.scaled ≤ high * 2 ^ Format.binary64.unit

/-- A number within bounds is not below the lower one as a `float` either. -/
theorem lt_ofInt_eq_false {low high : Int} {x : Number} (hx : x.between low high = true)
    (hlow : low.natAbs < 2 ^ 53) (hhigh : high.natAbs < 2 ^ 53) :
    x.toDouble.lt (.ofInt .binary64 low) = false := by
  have hbound : (Binary.ofInt .binary64 low).scaled = low * 2 ^ Format.binary64.unit :=
    Binary.scaled_ofInt hlow (by decide +kernel)
  suffices h : low * 2 ^ Format.binary64.unit ≤ x.toDouble.scaled by
    rw [Binary.lt, hbound, decide_eq_false (Int.not_lt.mpr h), Bool.and_false]
  cases x with
  | int n =>
      simp only [between, Bool.and_eq_true, decide_eq_true_eq] at hx
      have hn : n.natAbs < 2 ^ 53 := by omega
      have hscaled : (Binary.ofInt .binary64 n).scaled = n * 2 ^ Format.binary64.unit :=
        Binary.scaled_ofInt hn (by decide +kernel)
      rw [toDouble, hscaled]
      exact Int.mul_le_mul_of_nonneg_right hx.1 (Int.pow_nonneg (by decide))
  | float y =>
      simp only [between, Bool.and_eq_true, decide_eq_true_eq] at hx
      exact hx.1.2

end Number

/-- The number, if `type(value) in (int, float)`. -/
def Value.asNumber : Value → Option Number
  | .int n => some (.int n)
  | .float x => some (.float x)
  | _ => none

/-! ## Reading JSON -/

/-- What a JSON text says before the hooks are called. -/
inductive Parsed where
  | null
  | bool (b : Bool)
  | int (n : Int)
  | float (x : Double)
  | str (text : String)
  | constant (name : String)
  | array (items : List Parsed)
  | object (pairs : List (String × Parsed))

/-- `parse_constant` and `object_pairs_hook`. -/
structure Hooks where
  parseConstant : String → Except Exception Value
  objectPairs : List (String × Value) → Except Exception (List (String × Value))

mutual

/-- The object a tree denotes, from the leaves up. -/
def Parsed.build (hooks : Hooks) : Parsed → Except Exception Value
  | .null => .ok .null
  | .bool b => .ok (.bool b)
  | .int n => .ok (.int n)
  | .float x => .ok (.float x)
  | .str text => .ok (.str text)
  | .constant name => hooks.parseConstant name
  | .array items => do
      let items ← Parsed.buildItems hooks items
      return .list items
  | .object pairs => do
      let pairs ← Parsed.buildPairs hooks pairs
      let members ← hooks.objectPairs pairs
      return .dict members

def Parsed.buildItems (hooks : Hooks) : List Parsed → Except Exception (List Value)
  | [] => .ok []
  | item :: items => do
      let value ← item.build hooks
      let values ← Parsed.buildItems hooks items
      return value :: values

def Parsed.buildPairs (hooks : Hooks) :
    List (String × Parsed) → Except Exception (List (String × Value))
  | [] => .ok []
  | (name, item) :: pairs => do
      let value ← item.build hooks
      let values ← Parsed.buildPairs hooks pairs
      return (name, value) :: values

end

end Ros1Tools.Lib.Python
