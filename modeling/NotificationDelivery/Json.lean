import Mathlib.Data.UInt

/-!
# JSON values and exceptions

The part of `nlohmann::json` that the service calls, on values that are parsed already:
`at`, `value`, `contains` and `get<T>`. An exception is known by its text, which is a byte
string. A number is read at a C++ type: `getInt` reduces it to the 32 bits of an `int`.
-/

namespace NotificationDelivery

/-- A `std::exception`, by the bytes of `what()`. -/
structure Exn where
  what : List UInt8
  deriving DecidableEq, Repr

def Exn.ofText (text : String) : Exn := ⟨text.toUTF8.data.toList⟩

/-- A sequence of reads succeeds if each of them does. -/
theorem Exn.bind_eq_ok {Value Result : Type} {first : Except Exn Value}
    {rest : Value → Except Exn Result} {result : Result} :
    (first >>= rest) = .ok result ↔ ∃ value, first = .ok value ∧ rest value = .ok result := by
  cases first with
  | error ex => simp [bind, Except.bind]
  | ok value => simp [bind, Except.bind]

/-- A JSON value. `real` is a number with a fraction or an exponent, by its integer part. -/
inductive Json where
  | null
  | bool (b : Bool)
  | int (n : Int)
  | real (whole : Int)
  | str (s : String)
  | arr (items : List Json)
  | obj (fields : List (String × Json))
  deriving Repr

namespace Json

def typeName : Json → String
  | .null => "null"
  | .bool _ => "boolean"
  | .int _ => "number"
  | .real _ => "number"
  | .str _ => "string"
  | .arr _ => "array"
  | .obj _ => "object"

def typeError (number text : String) : Exn :=
  .ofText ("[json.exception.type_error." ++ number ++ "] " ++ text)

def outOfRange (number text : String) : Exn :=
  .ofText ("[json.exception.out_of_range." ++ number ++ "] " ++ text)

/-- `j.find(key)` on the fields of an object. -/
def find (key : String) : List (String × Json) → Option Json
  | [] => none
  | (name, item) :: rest => if name = key then some item else find key rest

/-- `j.at(key)`. -/
def at' (j : Json) (key : String) : Except Exn Json :=
  match j with
  | .obj fields =>
      match find key fields with
      | some item => .ok item
      | none => .error (outOfRange "403" ("key '" ++ key ++ "' not found"))
  | other => .error (typeError "304" ("cannot use at() with " ++ other.typeName))

/-- `j.contains(key)`. -/
def contains (j : Json) (key : String) : Bool :=
  match j with
  | .obj fields => (find key fields).isSome
  | _ => false

/-- `j.get<std::string>()`. -/
def getString : Json → Except Exn String
  | .str s => .ok s
  | other => .error (typeError "302" ("type must be string, but is " ++ other.typeName))

/-- A number, before it is reduced to a C++ type; booleans are numbers as well. -/
def getNumber : Json → Except Exn Int
  | .int n => .ok n
  | .real whole => .ok whole
  | .bool b => .ok (if b then 1 else 0)
  | other => .error (typeError "302" ("type must be number, but is " ++ other.typeName))

/-- `static_cast<int>` of the number that `j` is: an integer keeps its low 32 bits. The conversion
of a fraction that no `int` holds, which C++ leaves undefined, gives the smallest `int`. -/
def toInt (j : Json) (n : Int) : Int :=
  match j with
  | .real _ => if -2 ^ 31 ≤ n ∧ n < 2 ^ 31 then n else -2 ^ 31
  | _ => n.bmod (2 ^ 32)

/-- `j.get<int>()`. -/
def getInt (j : Json) : Except Exn Int := j.getNumber.map j.toInt

/-- `j.get<std::vector<int>>()`. -/
def getInts : Json → Except Exn (List Int)
  | .arr items => items.mapM getInt
  | other => .error (typeError "302" ("type must be array, but is " ++ other.typeName))

/-- `j.value(key, default)` at the type that `get` reads. -/
def value {Value : Type} (get : Json → Except Exn Value) (j : Json) (key : String)
    (default : Value) : Except Exn Value :=
  match j with
  | .obj fields =>
      match find key fields with
      | some item => get item
      | none => .ok default
  | other => .error (typeError "306" ("cannot use value() with " ++ other.typeName))

theorem find_cons (key name : String) (item : Json) (rest : List (String × Json)) :
    find key ((name, item) :: rest) = if name = key then some item else find key rest := rfl

/-- An `int` has 32 bits. -/
def IsInt (n : Int) : Prop := -2 ^ 31 ≤ n ∧ n < 2 ^ 31

instance (n : Int) : Decidable (IsInt n) := inferInstanceAs (Decidable (_ ∧ _))

theorem is_int_to_int (j : Json) (n : Int) : IsInt (j.toInt n) := by
  have hlow := Int.le_bmod (x := n) (m := 2 ^ 32) (by decide)
  have hhigh := Int.bmod_lt (x := n) (m := 2 ^ 32) (by decide)
  unfold IsInt toInt
  split
  · split <;> omega
  · omega

/-- A number that an `int` holds is read as it is. -/
theorem to_int_eq (j : Json) {n : Int} (h : IsInt n) : j.toInt n = n := by
  obtain ⟨hlow, hhigh⟩ := h
  unfold toInt
  split
  · exact if_pos ⟨hlow, hhigh⟩
  · exact Int.bmod_eq_of_le (by omega) (by omega)

/-- What is read is an `int`. -/
theorem is_int_of_get_int {j : Json} {n : Int} (h : j.getInt = .ok n) : IsInt n := by
  unfold getInt at h
  cases hnumber : j.getNumber with
  | error ex => simp [hnumber, Except.map] at h
  | ok whole =>
      simp only [hnumber, Except.map, Except.ok.injEq] at h
      exact h ▸ is_int_to_int j whole

/-- A field that is an `int`, or its default. -/
theorem is_int_of_value {j : Json} {key : String} {default n : Int} (hdefault : IsInt default)
    (h : j.value getInt key default = .ok n) : IsInt n := by
  unfold value at h
  split at h
  · split at h
    · exact is_int_of_get_int h
    · exact Except.ok.inj h ▸ hdefault
  · exact absurd h (by simp)

end Json

end NotificationDelivery
