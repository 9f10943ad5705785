/-!
# Outcomes of attempts

An attempt made in several steps succeeds only if each step does, and it fails as the first
step that fails.
-/

namespace WidgetStyle

variable {Failure Value Result : Type} {attempt : Except Failure Value} {result : Result}
  {failure : Failure}

/-- What a change of an outcome gives comes from a success. -/
theorem exists_of_map_eq_ok {change : Value → Result} (done : attempt.map change = .ok result) :
    ∃ value, attempt = .ok value ∧ change value = result := by
  cases attempt with
  | error error => cases done
  | ok value => exact ⟨value, rfl, Except.ok.inj done⟩

/-- What the second of two steps gives comes from a success of the first one. -/
theorem exists_of_bind_eq_ok {next : Value → Except Failure Result}
    (done : attempt >>= next = .ok result) :
    ∃ value, attempt = .ok value ∧ next value = .ok result := by
  cases attempt with
  | error error => cases done
  | ok value => exact ⟨value, rfl, done⟩

/-- A change of an outcome leaves a failure as it is. -/
theorem error_of_map_eq_error {change : Value → Result}
    (failed : attempt.map change = .error failure) : attempt = .error failure := by
  cases attempt with
  | error error =>
      cases failed
      rfl
  | ok value => cases failed

/-- Of two steps the first one fails, or the second one after it. -/
theorem cases_of_bind_eq_error {next : Value → Except Failure Result}
    (failed : attempt >>= next = .error failure) :
    attempt = .error failure ∨ ∃ value, attempt = .ok value ∧ next value = .error failure := by
  cases attempt with
  | error error =>
      cases failed
      exact .inl rfl
  | ok value => exact .inr ⟨value, rfl, failed⟩

end WidgetStyle
