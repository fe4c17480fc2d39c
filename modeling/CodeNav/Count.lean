/-
Module: CodeNav.Count
Purpose: Sums of counts, and how many values a number of bits can take.
Main exports:
  total, capacity
-/

namespace CodeNav

/-- The sum of numbers. -/
def total : List Nat → Nat
  | [] => 0
  | n :: rest => n + total rest

@[simp] theorem total_nil : total [] = 0 :=
  rfl

@[simp] theorem total_cons (n : Nat) (rest : List Nat) : total (n :: rest) = n + total rest :=
  rfl

theorem total_append (front rest : List Nat) :
    total (front ++ rest) = total front + total rest := by
  induction front with
  | nil => rw [List.nil_append, total_nil, Nat.zero_add]
  | cons n others ih => rw [List.cons_append, total_cons, total_cons, ih, Nat.add_assoc]

/-- The order of numbers does not matter for their sum. -/
theorem total_perm {numbers other : List Nat} (perm : numbers.Perm other) :
    total numbers = total other := by
  induction perm with
  | nil => rfl
  | cons n _ ih => rw [total_cons, total_cons, ih]
  | swap n m rest =>
      simp only [total_cons]
      omega
  | trans _ _ first second => exact first.trans second

/-- The number of values that some bits can take. -/
def capacity (bits : Nat) : Nat :=
  Nat.pow 2 bits

theorem capacity_zero : capacity 0 = 1 :=
  rfl

theorem capacity_add (m n : Nat) : capacity (m + n) = capacity m * capacity n :=
  Nat.pow_add 2 m n

theorem capacity_succ (n : Nat) : capacity (n + 1) = 2 * capacity n :=
  Nat.pow_succ'

end CodeNav
