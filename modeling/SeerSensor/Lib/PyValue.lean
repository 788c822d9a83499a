/-
Values of a Python program that reads a configuration: what a document loads as, the
operations such programs apply to it, and what these raise on a value of the wrong
type.

The lemmas say when an operation returns, and what, so that a reader of settings is
taken apart call by call.
-/
import Mathlib.Data.Rat.Defs
import SeerSensor.Lib.PyStr

namespace PyValue

/-- What YAML loads as. No operation asks which date it is. -/
inductive Value where
  | null
  | bool (b : Bool)
  | int (n : Int)
  | float (x : ℚ)
  | inf
  | nan
  | date
  | str (s : String)
  | list (vs : List Value)
  | dict (items : List (String × Value))

/-- The exceptions that reading a configuration can meet. -/
inductive Raised where
  | keyError (key : String)
  | typeError
  | attributeError
  | valueError
  | overflowError
  /-- Opening or parsing. -/
  | unreadable
  deriving DecidableEq

namespace Value

/-- `bool(v)`. -/
def truthy : Value → Bool
  | .null => false
  | .bool b => b
  | .int n => n ≠ 0
  | .float x => x ≠ 0
  | .inf | .nan | .date => true
  | .str s => s ≠ ""
  | .list vs => !vs.isEmpty
  | .dict items => !items.isEmpty

/-- `v.get(key, default)`. -/
def get (v : Value) (key : String) (default : Value) : Except Raised Value :=
  match v with
  | .dict items => .ok ((items.lookup key).getD default)
  | _ => .error .attributeError

/-- `v[key]`. -/
def index (v : Value) (key : String) : Except Raised Value :=
  match v with
  | .dict items =>
    match items.lookup key with
    | some x => .ok x
    | none => .error (.keyError key)
  | _ => .error .typeError

/-- `int(v)`. -/
def toInt : Value → Except Raised Int
  | .bool b => .ok (if b then 1 else 0)
  | .int n => .ok n
  | .float x => .ok (x.num.tdiv x.den)
  | .inf => .error .overflowError
  | .nan => .error .valueError
  | .str s =>
    match PyStr.int (PyStr.strip s) with
    | some n => .ok n
    | none => .error .valueError
  | _ => .error .typeError

/-- A text, where one is asked for. -/
def text : Value → Except Raised String
  | .str s => .ok s
  | _ => .error .typeError

/-- What iterating gives, if it gives texts and nothing else. -/
def texts : Value → Except Raised (List String)
  | .str s => .ok (s.toList.map fun c => String.ofList [c])
  | .list vs => vs.mapM text
  | .dict items => .ok (items.map (·.1))
  | _ => .error .typeError

/-- A number that compares with others. -/
def number : Value → Option ℚ
  | .bool b => some (if b then 1 else 0)
  | .int n => some n
  | .float x => some x
  | _ => none

end Value

section
variable {α β : Type} {v x d : Value} {key : String}

theorem bind_eq_ok {y : Except Raised α} {f : α → Except Raised β} {b : β} :
    (y >>= f) = .ok b ↔ ∃ a, y = .ok a ∧ f a = .ok b := by
  cases y with
  | error e =>
    constructor
    · intro h
      cases h
    · rintro ⟨_, h, -⟩
      cases h
  | ok a =>
    constructor
    · exact fun h => ⟨a, rfl, h⟩
    · rintro ⟨_, h, hf⟩
      cases h
      exact hf

theorem get_eq_ok : v.get key d = .ok x ↔ ∃ items, v = .dict items ∧ x = (items.lookup key).getD d := by
  cases v with
  | dict items => simp [Value.get, eq_comm]
  | _ => simp [Value.get]

theorem index_eq_ok : v.index key = .ok x ↔ ∃ items, v = .dict items ∧ items.lookup key = some x := by
  cases v with
  | dict items => cases h : items.lookup key <;> simp [Value.index, h]
  | _ => simp [Value.index]

theorem text_eq_ok {s : String} : v.text = .ok s ↔ v = .str s := by
  cases v <;> simp [Value.text]

theorem texts_strs (l : List String) : (Value.list (l.map .str)).texts = .ok l := by
  induction l with
  | nil => rfl
  | cons s l ih =>
    simp only [Value.texts, List.map_cons, List.mapM_cons] at ih ⊢
    rw [ih]
    rfl

end

end PyValue
