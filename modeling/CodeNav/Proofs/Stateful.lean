/-
Module: CodeNav.Proofs.Stateful
Purpose: Computations on a state that may fail: what they keep, and which states they tell apart.
Main exports:
  Stateful.Keeps, Stateful.Related, Stateful.Yields, Stateful.bind_run
-/

namespace CodeNav.Stateful

variable {ε σ α β : Type}

/-! ### Runs -/

theorem pure_run (a : α) (s : σ) : (pure a : ExceptT ε (StateM σ) α) s = (.ok a, s) :=
  rfl

theorem throw_run (e : ε) (s : σ) : (throw e : ExceptT ε (StateM σ) α) s = (.error e, s) :=
  rfl

theorem get_run (s : σ) : (getThe σ : ExceptT ε (StateM σ) σ) s = (.ok s, s) :=
  rfl

/-- A computation goes on from the state that the first part leaves, unless that fails. -/
theorem bind_run (c : ExceptT ε (StateM σ) α) (f : α → ExceptT ε (StateM σ) β) (s : σ) :
    (c >>= f) s =
      match c s with
      | (.ok a, s) => f a s
      | (.error e, s) => (.error e, s) := by
  change (match c s with | (a, s) => ExceptT.bindCont f a s) = _
  rcases c s with ⟨_ | _, _⟩ <;> rfl

theorem bind_ok {c : ExceptT ε (StateM σ) α} {f : α → ExceptT ε (StateM σ) β} {s t : σ} {a : α}
    (first : c s = (.ok a, t)) : (c >>= f) s = f a t := by
  rw [bind_run, first]

/-- A computation goes on from what the first part is known to come to. -/
theorem bind_fst {c : ExceptT ε (StateM σ) α} {f : α → ExceptT ε (StateM σ) β} {s : σ} {a : α}
    (first : (c s).1 = .ok a) : (c >>= f) s = f a (c s).2 :=
  bind_ok (Prod.ext first rfl)

theorem bind_error {c : ExceptT ε (StateM σ) α} {f : α → ExceptT ε (StateM σ) β} {s t : σ} {e : ε}
    (first : c s = (.error e, t)) : (c >>= f) s = (.error e, t) := by
  rw [bind_run, first]

/-- A failure is dealt with in the state that it leaves. -/
theorem tryCatch_run (c : ExceptT ε (StateM σ) α) (f : ε → ExceptT ε (StateM σ) α) (s : σ) :
    (tryCatch c f) s =
      match c s with
      | (.ok a, s) => (.ok a, s)
      | (.error e, s) => f e s := by
  change (match c s with
    | (result, s) =>
      (match result with
        | .ok a => (pure (.ok a) : StateM σ (Except ε α))
        | .error e => f e) s) = _
  rcases c s with ⟨_ | _, _⟩ <;> rfl

/-- A run that fails does so in its first part, or behind it. -/
theorem bind_eq_error {c : ExceptT ε (StateM σ) α} {f : α → ExceptT ε (StateM σ) β} {s t : σ}
    {e : ε} (run : (c >>= f) s = (.error e, t)) :
    c s = (.error e, t) ∨ ∃ a u, c s = (.ok a, u) ∧ f a u = (.error e, t) := by
  rw [bind_run] at run
  generalize c s = first at run ⊢
  obtain ⟨result, u⟩ := first
  cases result with
  | error other =>
      cases run
      exact .inl rfl
  | ok a => exact .inr ⟨a, u, rfl, run⟩

/-- A run that succeeds does so in both parts. -/
theorem bind_eq_ok {c : ExceptT ε (StateM σ) α} {f : α → ExceptT ε (StateM σ) β} {s t : σ} {b : β} :
    (c >>= f) s = (.ok b, t) ↔ ∃ a u, c s = (.ok a, u) ∧ f a u = (.ok b, t) := by
  constructor
  · intro run
    cases first : c s with
    | mk result u =>
        cases result with
        | error e =>
            rw [bind_error first] at run
            cases run
        | ok a =>
            rw [bind_ok first] at run
            exact ⟨a, u, rfl, run⟩
  · rintro ⟨a, u, first, rest⟩
    exact (bind_ok first).trans rest

/-! ### What computations keep -/

/-- A computation keeps a property of states, whether it fails or not. -/
def Keeps (P : σ → Prop) (c : ExceptT ε (StateM σ) α) : Prop :=
  ∀ s, P s → P (c s).2

namespace Keeps

variable {P : σ → Prop}

theorem pure (a : α) : Keeps P (pure a : ExceptT ε (StateM σ) α) :=
  fun _ holds => holds

theorem throw (e : ε) : Keeps P (throw e : ExceptT ε (StateM σ) α) :=
  fun _ holds => holds

theorem bind {c : ExceptT ε (StateM σ) α} {f : α → ExceptT ε (StateM σ) β} (first : Keeps P c)
    (rest : ∀ a, Keeps P (f a)) : Keeps P (c >>= f) := by
  intro s holds
  have kept := first s holds
  rw [bind_run]
  generalize c s = run at kept ⊢
  obtain ⟨result, t⟩ := run
  cases result with
  | error e => exact kept
  | ok a => exact rest a t kept

/-- What comes behind reading the state may rely on the state that was read. -/
theorem get_bind {f : σ → ExceptT ε (StateM σ) β} (rest : ∀ s, P s → P (f s s).2) :
    Keeps P (getThe σ >>= f) :=
  rest

end Keeps

/-! ### States that computations do not tell apart -/

/-- From related states, computations come to equal results and related states. -/
def Related (R : σ → σ → Prop) (c d : ExceptT ε (StateM σ) α) : Prop :=
  ∀ s t, R s t → (c s).1 = (d t).1 ∧ R (c s).2 (d t).2

/-- A computation does not tell related states apart. -/
abbrev Respects (R : σ → σ → Prop) (c : ExceptT ε (StateM σ) α) : Prop :=
  Related R c c

namespace Related

variable {R : σ → σ → Prop}

theorem pure (a : α) : Related R (pure a : ExceptT ε (StateM σ) α) (pure a) :=
  fun _ _ related => ⟨rfl, related⟩

theorem throw (e : ε) : Related R (throw e : ExceptT ε (StateM σ) α) (throw e) :=
  fun _ _ related => ⟨rfl, related⟩

/-- The rest of two computations starts from what their first parts come to. -/
theorem bind_from {c d : ExceptT ε (StateM σ) α} {f g : α → ExceptT ε (StateM σ) β} {s t : σ}
    (first : (c s).1 = (d t).1 ∧ R (c s).2 (d t).2) (rest : ∀ a, Related R (f a) (g a)) :
    ((c >>= f) s).1 = ((d >>= g) t).1 ∧ R ((c >>= f) s).2 ((d >>= g) t).2 := by
  rw [bind_run, bind_run]
  generalize c s = left at first ⊢
  generalize d t = right at first ⊢
  obtain ⟨result, s⟩ := left
  obtain ⟨other, t⟩ := right
  obtain ⟨same, related⟩ := first
  cases same
  cases result with
  | error e => exact ⟨rfl, related⟩
  | ok a => exact rest a s t related

theorem bind {c d : ExceptT ε (StateM σ) α} {f g : α → ExceptT ε (StateM σ) β}
    (first : Related R c d) (rest : ∀ a, Related R (f a) (g a)) :
    Related R (c >>= f) (d >>= g) :=
  fun s t related => bind_from (first s t related) rest

theorem tryCatch {c d : ExceptT ε (StateM σ) α} {f g : ε → ExceptT ε (StateM σ) α}
    (first : Related R c d) (rest : ∀ e, Related R (f e) (g e)) :
    Related R (tryCatch c f) (tryCatch d g) := by
  intro s t related
  have next := first s t related
  rw [tryCatch_run, tryCatch_run]
  generalize c s = left at next ⊢
  generalize d t = right at next ⊢
  obtain ⟨result, s⟩ := left
  obtain ⟨other, t⟩ := right
  obtain ⟨same, related⟩ := next
  cases same
  cases result with
  | error e => exact rest e s t related
  | ok a => exact ⟨rfl, related⟩

/-- What comes behind reading the state has to do the same for both states. -/
theorem get_bind {f g : σ → ExceptT ε (StateM σ) β}
    (rest : ∀ s t, R s t → (f s s).1 = (g t t).1 ∧ R (f s s).2 (g t t).2) :
    Related R (getThe σ >>= f) (getThe σ >>= g) :=
  rest

end Related

/-- What is kept by a computation is a relation that it respects. -/
theorem Keeps.respects {P : σ → Prop} {c : ExceptT ε (StateM σ) α} (keeps : Keeps P c) :
    Respects (fun s t => s = t ∧ P s) c := by
  rintro s t ⟨rfl, holds⟩
  exact ⟨rfl, rfl, keeps s holds⟩

/-! ### Results that do not depend on the state -/

/-- From all states with a property, a computation comes to one result, and leaves a state with
another property. -/
def Yields (P Q : σ → Prop) (c : ExceptT ε (StateM σ) α) (result : Except ε α) : Prop :=
  ∀ s, P s → (c s).1 = result ∧ Q (c s).2

namespace Yields

variable {P Q R : σ → Prop}

theorem pure (a : α) : Yields P P (pure a : ExceptT ε (StateM σ) α) (.ok a) :=
  fun _ holds => ⟨rfl, holds⟩

theorem throw (e : ε) : Yields P P (throw e : ExceptT ε (StateM σ) α) (.error e) :=
  fun _ holds => ⟨rfl, holds⟩

theorem weaken {c : ExceptT ε (StateM σ) α} {result : Except ε α} (yields : Yields P Q c result)
    (weaker : ∀ s, Q s → R s) : Yields P R c result := by
  intro s holds
  obtain ⟨same, after⟩ := yields s holds
  exact ⟨same, weaker _ after⟩

theorem strengthen {c : ExceptT ε (StateM σ) α} {result : Except ε α} (yields : Yields Q R c result)
    (stronger : ∀ s, P s → Q s) : Yields P R c result :=
  fun s holds => yields s (stronger s holds)

/-- The rest of a computation starts from what the first part yields. If that fails, nothing comes
behind it. -/
theorem bind {c : ExceptT ε (StateM σ) α} {f : α → ExceptT ε (StateM σ) β} {result : Except ε α}
    {g : α → Except ε β} (first : Yields P Q c result) (weaker : ∀ s, Q s → R s)
    (rest : ∀ a, result = .ok a → Yields Q R (f a) (g a)) :
    Yields P R (c >>= f) (result >>= g) := by
  intro s holds
  obtain ⟨same, after⟩ := first s holds
  rw [bind_run]
  generalize c s = run at same after ⊢
  obtain ⟨outcome, t⟩ := run
  cases same
  cases outcome with
  | error e => exact ⟨rfl, weaker t after⟩
  | ok a => exact rest a rfl t after

end Yields

end CodeNav.Stateful
