/-!
# Results of computations that can fail

A computation made of two has a result when both have.  What is known of the result of a
computation, if it has one, also says that it has one.
-/

namespace MiniC

variable {ε α β : Type}

/-- A computation made of two has a result when both have, one after the other. -/
theorem bind_eq_ok {first : Except ε α} {next : α -> Except ε β} {result : β} :
    first >>= next = .ok result ↔
      ∃ value, first = .ok value ∧ next value = .ok result := by
  cases first with
  | error error => simp [bind, Except.bind]
  | ok value => simp [bind, Except.bind]

/-- The result of a computation that is known to succeed. -/
theorem eq_ok_of_isOk {result : Except ε α} {otherwise : α}
    (succeeds : result.isOk = true) :
    result = .ok (result.toOption.getD otherwise) := by
  cases result with
  | error error => cases succeeds
  | ok value => rfl

/-- A computation that has a result of which something is known. -/
theorem exists_eq_ok_of_map {result : Except ε α} {read : α -> β} {value : β}
    (known : result.toOption.map read = some value) :
    ∃ given, result = .ok given ∧ read given = value := by
  cases result with
  | error error => cases known
  | ok given => exact ⟨given, rfl, Option.some.inj known⟩

/-- A computation whose result is known. -/
theorem eq_ok_of_toOption {result : Except ε α} {value : α}
    (succeeds : result.toOption = some value) : result = .ok value := by
  cases result with
  | error error => cases succeeds
  | ok other => exact congrArg Except.ok (Option.some.inj succeeds)

end MiniC
