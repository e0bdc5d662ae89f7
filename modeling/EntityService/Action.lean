import EntityService.Error

/-!
# Operations that can fail

Operations on a state that end with a value or with an error.

## Main definitions

* `Action` — an operation on a state
* `Action.bind` — one operation after another
* `Action.fail` — an operation that does nothing but fail

## Design notes

An operation gives back the state after it also when it fails, so that what a failed operation has
done can be stated.
-/

namespace EntityService

/-- An operation on states of the type `σ` that ends with a value of the type `α` or an error. -/
def Action (σ α : Type) : Type := σ → Except Error α × σ

namespace Action

variable {σ α β : Type}

/-- End with a value. -/
def pure (a : α) : Action σ α := fun s => (.ok a, s)

/-- End with an error. -/
def fail (cause : Error) : Action σ α := fun s => (.error cause, s)

/-- Go on with the value of an operation, unless it fails. -/
def bind (first : Action σ α) (next : α → Action σ β) : Action σ β := fun s =>
  match first s with
  | (.ok a, s) => next a s
  | (.error cause, s) => (.error cause, s)

instance : Monad (Action σ) where
  pure := Action.pure
  bind := Action.bind

/-- End with the value that is there, or with an error when there is none. -/
def ofOption (cause : Error) : Option α → Action σ α
  | some a => pure a
  | none => fail cause

/-- Change the value of an operation. -/
def mapValue (f : α → β) (a : Action σ α) : Action σ β := fun s =>
  let (result, s) := a s
  (result.map f, s)

/-! ### One operation after another -/

theorem mapValue_fst (f : α → β) (a : Action σ α) (s : σ) :
    (a.mapValue f s).1 = (a s).1.map f := rfl

theorem mapValue_congr {a b : Action σ α} {s : σ} (h : a s = b s) (f : α → β) :
    a.mapValue f s = b.mapValue f s := by
  rw [mapValue, mapValue, h]

/-- After an operation that ends with a value the next one goes on. -/
theorem bind_apply_of_ok {first : Action σ α} {s : σ} {a : α} (h : (first s).1 = .ok a)
    (next : α → Action σ β) : (first >>= next) s = next a (first s).2 := by
  change Action.bind first next s = _
  unfold Action.bind
  split
  · next b t heq =>
    rw [heq] at h ⊢
    cases h
    rfl
  · next cause t heq =>
    rw [heq] at h
    cases h

/-- An operation that fails ends everything, in the state that it leaves. -/
theorem bind_apply_of_error {first : Action σ α} {s : σ} {cause : Error}
    (h : (first s).1 = .error cause) (next : α → Action σ β) :
    (first >>= next) s = (.error cause, (first s).2) := by
  change Action.bind first next s = _
  unfold Action.bind
  split
  · next b t heq =>
    rw [heq] at h
    cases h
  · next other t heq =>
    rw [heq] at h ⊢
    cases h
    rfl

/-- What ends with a value has gone on with the value of its first operation. -/
theorem of_bind_eq_ok {first : Action σ α} {next : α → Action σ β} {s : σ} {b : β}
    (h : ((first >>= next) s).1 = .ok b) :
    ∃ a, (first s).1 = .ok a ∧ (first >>= next) s = next a (first s).2 := by
  cases hfirst : (first s).1 with
  | error cause =>
      rw [bind_apply_of_error hfirst] at h
      cases h
  | ok a => exact ⟨a, rfl, bind_apply_of_ok hfirst next⟩

/-- In two states a sequence ends alike when its first operation does and the next one goes on
alike. -/
theorem bind_fst_congr {first : Action σ α} {next : α → Action σ β} {s t : σ}
    (hfirst : (first s).1 = (first t).1)
    (hnext : ∀ a, (first s).1 = .ok a → (next a (first s).2).1 = (next a (first t).2).1) :
    ((first >>= next) s).1 = ((first >>= next) t).1 := by
  cases hresult : (first s).1 with
  | error cause =>
      rw [bind_apply_of_error hresult, bind_apply_of_error (hfirst.symm.trans hresult)]
  | ok a =>
      rw [bind_apply_of_ok hresult, bind_apply_of_ok (hfirst.symm.trans hresult)]
      exact hnext a hresult

/-- To go on with a change of the value is to change the value. -/
theorem bind_pure_apply (a : Action σ α) (f : α → β) (s : σ) :
    (a >>= fun x => Pure.pure (f x)) s = a.mapValue f s := by
  change Action.bind a _ s = _
  unfold Action.bind mapValue
  split
  · next b t heq =>
    rw [heq]
    rfl
  · next cause t heq =>
    rw [heq]
    rfl

end Action

end EntityService
