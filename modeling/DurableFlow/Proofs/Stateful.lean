import DurableFlow.Bytes

/-! # Computations that may stop early

A computation either has a result or stops with an error. Those that also carry a state leave one
behind in either case. The equations here take such computations apart; the theorems about hosts and
sites cite them and never look into the monads.
-/

namespace DurableFlow.Stateful

section Results

variable {ε ε' α β : Type}

theorem bind_eq_ok {x : Except ε α} {f : α → Except ε β} {b : β} :
    (x >>= f) = .ok b ↔ ∃ a, x = .ok a ∧ f a = .ok b := by
  cases x <;> simp [bind, Except.bind]

theorem pure_eq_ok {a b : α} : (pure a : Except ε α) = .ok b ↔ a = b := by
  simp [pure, Except.pure]

@[simp]
theorem mapError_ok (f : ε → ε') (a : α) : (Except.ok a).mapError f = .ok a := rfl

@[simp]
theorem mapError_error (f : ε → ε') (e : ε) :
    (Except.error e : Except ε α).mapError f = .error (f e) := rfl

theorem mapError_eq_ok {x : Except ε α} {f : ε → ε'} {a : α} :
    x.mapError f = .ok a ↔ x = .ok a := by
  cases x <;> simp

theorem map_eq_ok {x : Except ε α} {f : α → β} {b : β} :
    x.map f = .ok b ↔ ∃ a, x = .ok a ∧ f a = b := by
  cases x <;> simp [Except.map]

/-- What every step of a fold keeps is kept by the fold. -/
theorem foldlM_keeps {P : β → Prop} {f : β → α → Except ε β}
    (step : ∀ b a b', P b → f b a = .ok b' → P b') {items : List α} {b b' : β}
    (start : P b) (done : items.foldlM f b = .ok b') : P b' := by
  induction items generalizing b with
  | nil =>
      cases done
      exact start
  | cons a rest ih =>
      rw [List.foldlM_cons, bind_eq_ok] at done
      obtain ⟨next, first, rest⟩ := done
      exact ih (step b a next start first) rest

end Results

section Runs

variable {ε τ α β : Type}

theorem run_bind (c : ExceptT ε (StateM τ) α) (f : α → ExceptT ε (StateM τ) β) (state : τ) :
    (c >>= f).run.run state =
      match c.run.run state with
      | (.ok a, state) => (f a).run.run state
      | (.error e, state) => (.error e, state) := by
  change (ExceptT.bindCont f (c.run.run state).1).run (c.run.run state).2 = _
  rcases c.run.run state with ⟨r | r, after⟩ <;> rfl

theorem run_bind_ok {c : ExceptT ε (StateM τ) α} {f : α → ExceptT ε (StateM τ) β} {b : β}
    {before after : τ} :
    (c >>= f).run.run before = (.ok b, after) ↔ ∃ a middle,
      c.run.run before = (.ok a, middle) ∧ (f a).run.run middle = (.ok b, after) := by
  rw [run_bind]
  rcases c.run.run before with ⟨e | a, middle⟩
  · constructor
    · intro h
      cases h
    · rintro ⟨_, _, first, _⟩
      cases first
  · constructor
    · exact fun h => ⟨a, middle, rfl, h⟩
    · rintro ⟨_, _, first, h⟩
      cases first
      exact h

theorem run_get (state : τ) :
    (get : ExceptT ε (StateM τ) τ).run.run state = (.ok state, state) := rfl

theorem run_set (after state : τ) :
    (set after : ExceptT ε (StateM τ) PUnit).run.run state = (.ok ⟨⟩, after) := rfl

theorem run_modify (f : τ → τ) (state : τ) :
    (modify f : ExceptT ε (StateM τ) PUnit).run.run state = (.ok ⟨⟩, f state) := rfl

theorem run_result_ok {result : Except ε α} {a : α} {before after : τ} :
    (ExceptT.mk (pure result) : ExceptT ε (StateM τ) α).run.run before = (.ok a, after) ↔
      result = .ok a ∧ after = before := by
  constructor
  · intro h
    cases h
    exact ⟨rfl, rfl⟩
  · rintro ⟨rfl, rfl⟩
    rfl

theorem run_result (result : Except ε α) (state : τ) :
    (ExceptT.mk (pure result) : ExceptT ε (StateM τ) α).run.run state = (result, state) := rfl

end Runs

end DurableFlow.Stateful
