/-!
Outcomes that are either a value or a failure, taken apart.
-/
namespace RowReduction

variable {ε α β σ τ : Type}

theorem eq_ok_of_isOk {x : Except ε α} (h : x.isOk = true) : ∃ a, x = .ok a := by
  cases x with
  | error e => exact nomatch h
  | ok a => exact ⟨a, rfl⟩

theorem eq_error_of_not_isOk {x : Except ε α} (h : x.isOk = false) : ∃ e, x = .error e := by
  cases x with
  | error e => exact ⟨e, rfl⟩
  | ok a => exact nomatch h

/-- Two computations in a row that succeed have both succeeded. -/
theorem eq_ok_of_bind_eq_ok {x : Except ε α} {f : α → Except ε β} {c : β}
    (h : x >>= f = .ok c) : ∃ a, x = .ok a ∧ f a = .ok c := by
  cases x with
  | error e => exact nomatch h
  | ok a => exact ⟨a, rfl, h⟩

/-- Failures may be renamed on the way. -/
theorem mapError_bind {ε' : Type} (x : Except ε α) (f : α → Except ε β) (rename : ε → ε') :
    (x >>= f).mapError rename = x.mapError rename >>= fun a => (f a).mapError rename := by
  cases x <;> rfl

/-- What is seen of a success was seen of some value. -/
theorem eq_ok_of_toOption_map_eq_some {x : Except ε α} {view : α → β} {c : β}
    (h : x.toOption.map view = some c) : ∃ a, x = .ok a ∧ view a = c := by
  cases x with
  | error e => exact nomatch h
  | ok a => exact ⟨a, rfl, Option.some.inj h⟩

/-- **Loops that can fail, seen through a map of states**: when every turn of one loop is a turn of
the other seen through `view`, so is the whole loop, and both fail alike. -/
theorem foldlM_map_state (view : σ → τ) {f : σ → α → Except ε σ} {g : τ → α → Except ε τ}
    (hturn : ∀ s a, g (view s) a = (f s a).map view) (xs : List α) (s : σ) :
    xs.foldlM g (view s) = (xs.foldlM f s).map view := by
  induction xs generalizing s with
  | nil => rfl
  | cons a rest ih =>
      rw [List.foldlM_cons, List.foldlM_cons, hturn]
      cases f s a with
      | error e => rfl
      | ok t => exact ih t

end RowReduction
