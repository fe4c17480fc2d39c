/-
Module: CodeNav.Proofs.Success
Purpose: When results made of other results are successes.
Main exports:
  Success.ok_bind, Success.bind_eq_ok, Success.map_eq_ok, Success.mapError_eq_ok,
  Success.isOk_iff, Success.map_toOption_eq_some, Success.toOption_bind, Success.toOption_mapM,
  Success.mem_of_mapM
-/

namespace CodeNav.Success

variable {ε δ α β : Type}

theorem ok_bind (a : α) (f : α → Except ε β) : (Except.ok a >>= f) = f a :=
  rfl

/-- Two steps succeed if the first does, and the second from there. -/
theorem bind_eq_ok {x : Except ε α} {f : α → Except ε β} {b : β} :
    (x >>= f) = .ok b ↔ ∃ a, x = .ok a ∧ f a = .ok b := by
  cases x with
  | error failure => simp [bind, Except.bind]
  | ok a => simp [bind, Except.bind]

theorem pure_eq_ok {a b : α} : (pure a : Except ε α) = .ok b ↔ a = b :=
  Except.ok.injEq a b ▸ Iff.rfl

theorem map_eq_ok {x : Except ε α} {f : α → β} {b : β} :
    x.map f = .ok b ↔ ∃ a, x = .ok a ∧ f a = b := by
  cases x with
  | error failure => simp [Except.map]
  | ok a => simp [Except.map]

theorem mapError_eq_ok {x : Except ε α} {f : ε → δ} {a : α} :
    x.mapError f = .ok a ↔ x = .ok a := by
  cases x with
  | error failure => exact ⟨nofun, nofun⟩
  | ok b => exact ⟨by rintro ⟨⟩; rfl, by rintro ⟨⟩; rfl⟩

theorem isOk_iff {x : Except ε α} : x.isOk ↔ ∃ a, x = .ok a := by
  cases x with
  | error failure => exact ⟨nofun, nofun⟩
  | ok a => exact ⟨fun _ => ⟨a, rfl⟩, fun _ => rfl⟩

/-- What is seen of a result is seen of the success that it is. -/
theorem map_toOption_eq_some {x : Except ε α} {f : α → β} {b : β} :
    x.toOption.map f = some b ↔ ∃ a, x = .ok a ∧ f a = b := by
  cases x with
  | error failure => exact ⟨nofun, nofun⟩
  | ok a => simp [Except.toOption]

theorem toOption_bind (x : Except ε α) (f : α → Except ε β) :
    (x >>= f).toOption = x.toOption.bind fun a => (f a).toOption := by
  cases x <;> rfl

theorem toOption_map (x : Except ε α) (f : α → β) : (x.map f).toOption = x.toOption.map f := by
  cases x <;> rfl

theorem toOption_mapError (x : Except ε α) (f : ε → δ) : (x.mapError f).toOption = x.toOption := by
  cases x <;> rfl

theorem toOption_eq_some {x : Except ε α} {a : α} : x.toOption = some a ↔ x = .ok a := by
  cases x <;> simp [Except.toOption]

theorem toOption_mapM (f : α → Except ε β) (items : List α) :
    (items.mapM f).toOption = items.mapM fun a => (f a).toOption := by
  induction items with
  | nil => rfl
  | cons a rest ih =>
      rw [List.mapM_cons, List.mapM_cons, toOption_bind]
      refine congrArg _ (funext fun b => ?_)
      rw [toOption_bind, ih]
      rfl

/-- Each result of a row of successes is the result for one of the items. -/
theorem mem_of_mapM {f : α → Except ε β} {items : List α} {results : List β}
    (mapped : items.mapM f = .ok results) {b : β} (listed : b ∈ results) :
    ∃ a ∈ items, f a = .ok b := by
  induction items generalizing results with
  | nil =>
      cases mapped
      cases listed
  | cons a rest ih =>
      rw [List.mapM_cons] at mapped
      obtain ⟨first, own, mapped⟩ := bind_eq_ok.mp mapped
      obtain ⟨others, later, mapped⟩ := bind_eq_ok.mp mapped
      cases mapped
      rcases List.mem_cons.mp listed with rfl | listed
      · exact ⟨a, List.mem_cons_self, own⟩
      · obtain ⟨other, among, found⟩ := ih later listed
        exact ⟨other, List.mem_cons_of_mem a among, found⟩

end CodeNav.Success
