/-
Module: CodeNav.Json.Value
Purpose: JSON values with key-ordered objects and exact numbers.
Main exports:
  Json.Number, Json.Value, Json.Fields.insert, Json.Value.record, Json.Value.field?
-/
import CodeNav.Decimal.Binary64

namespace CodeNav.Json

/-- A number is an integer within the 64-bit range, or a double. -/
inductive Number where
  | integer (n : Int)
  | real (x : Binary64)
deriving Repr, DecidableEq, Inhabited

/-- A JSON value. The members of an object are kept in ascending order of their keys, each key
once; `Fields.insert` builds them so. -/
inductive Value where
  | null
  | bool (b : Bool)
  | number (n : Number)
  | string (s : String)
  | array (items : List Value)
  | object (fields : List (String × Value))
deriving Repr, Inhabited

/-- The members of an object. -/
abbrev Fields := List (String × Value)

namespace Fields

/-- Binds a key, replacing what it was bound to. -/
def insert : Fields → String → Value → Fields
  | [], key, value => [(key, value)]
  | (k, v) :: rest, key, value =>
    match compare key k with
    | .lt => (key, value) :: (k, v) :: rest
    | .eq => (key, value) :: rest
    | .gt => (k, v) :: insert rest key value

/-- What a key is bound to. -/
def get? (fields : Fields) (key : String) : Option Value :=
  fields.lookup key

/-- The object with these bindings; of two for one key the later counts. -/
def ofList (bindings : List (String × Value)) : Fields :=
  bindings.foldl (fun fields (key, value) => insert fields key value) []

end Fields

namespace Value

/-- The object with these bindings; of two for one key the later counts. -/
def record (bindings : List (String × Value)) : Value :=
  .object (Fields.ofList bindings)

/-- The natural number as a value. -/
def nat (n : Nat) : Value :=
  .number (.integer n)

/-- The text as a value, or null. -/
def optional (s : Option String) : Value :=
  (s.map .string).getD .null

/-- The member of an object under a key. -/
def field? (key : String) : Value → Option Value
  | .object fields => Fields.get? fields key
  | _ => none

mutual

/-- Structural equality. -/
def same : Value → Value → Bool
  | .null, .null => true
  | .bool a, .bool b => a == b
  | .number a, .number b => a == b
  | .string a, .string b => a == b
  | .array as, .array bs => sameItems as bs
  | .object as, .object bs => sameFields as bs
  | _, _ => false

/-- Structural equality of item lists. -/
def sameItems : List Value → List Value → Bool
  | [], [] => true
  | a :: as, b :: bs => same a b && sameItems as bs
  | _, _ => false

/-- Structural equality of member lists. -/
def sameFields : List (String × Value) → List (String × Value) → Bool
  | [], [] => true
  | (k, a) :: as, (l, b) :: bs => k == l && same a b && sameFields as bs
  | _, _ => false

end

mutual

theorem eq_of_same : ∀ {a b : Value}, same a b = true → a = b
  | .null, b, h => by cases b <;> simp_all [same]
  | .bool _, b, h => by cases b <;> simp_all [same]
  | .number _, b, h => by cases b <;> simp_all [same]
  | .string _, b, h => by cases b <;> simp_all [same]
  | .array as, b, h => by
    cases b with
    | array bs =>
      have items : sameItems as bs = true := by simpa [same] using h
      rw [eq_of_sameItems items]
    | _ => simp [same] at h
  | .object as, b, h => by
    cases b with
    | object bs =>
      have fields : sameFields as bs = true := by simpa [same] using h
      rw [eq_of_sameFields fields]
    | _ => simp [same] at h

theorem eq_of_sameItems : ∀ {as bs : List Value}, sameItems as bs = true → as = bs
  | [], bs, h => by cases bs <;> simp_all [sameItems]
  | a :: as, bs, h => by
    cases bs with
    | nil => simp [sameItems] at h
    | cons b bs =>
      simp only [sameItems, Bool.and_eq_true] at h
      rw [eq_of_same h.1, eq_of_sameItems h.2]

theorem eq_of_sameFields :
    ∀ {as bs : List (String × Value)}, sameFields as bs = true → as = bs
  | [], bs, h => by cases bs <;> simp_all [sameFields]
  | (k, a) :: as, bs, h => by
    cases bs with
    | nil => simp [sameFields] at h
    | cons b bs =>
      obtain ⟨l, b⟩ := b
      simp only [sameFields, Bool.and_eq_true, beq_iff_eq] at h
      rw [h.1.1, eq_of_same h.1.2, eq_of_sameFields h.2]

end

mutual

theorem same_self : ∀ a : Value, same a a = true
  | .null => rfl
  | .bool b => by simp [same]
  | .number n => by simp [same]
  | .string s => by simp [same]
  | .array items => by simpa [same] using sameItems_self items
  | .object fields => by simpa [same] using sameFields_self fields

theorem sameItems_self : ∀ as : List Value, sameItems as as = true
  | [] => rfl
  | a :: as => by simp [sameItems, same_self a, sameItems_self as]

theorem sameFields_self : ∀ as : List (String × Value), sameFields as as = true
  | [] => rfl
  | (k, a) :: as => by simp [sameFields, same_self a, sameFields_self as]

end

instance : DecidableEq Value := fun a b =>
  if h : same a b = true then .isTrue (eq_of_same h)
  else .isFalse fun e => h (e ▸ same_self a)

end Value

end CodeNav.Json
