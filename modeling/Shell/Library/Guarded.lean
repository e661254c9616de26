/-!
# Guarded computations

A computation that ends early with an error, and rules to say at once what its
result and what its errors satisfy.
-/

namespace Shell.Guarded

universe u v

variable {Error : Type u} {Value Result : Type v}

/-- Errors satisfy the one condition and values the other. -/
def Meets (onError : Error → Prop) (onValue : Value → Prop) :
    Except Error Value → Prop
  | .error error => onError error
  | .ok value => onValue value

theorem Meets.bind
    {onError : Error → Prop} {between : Value → Prop}
    {onValue : Result → Prop} {first : Except Error Value}
    {second : Value → Except Error Result}
    (meetsFirst : Meets onError between first)
    (meetsSecond :
      ∀ value, between value → Meets onError onValue (second value)) :
    Meets onError onValue (first >>= second) := by
  cases first with
  | error error => exact meetsFirst
  | ok value => exact meetsSecond value meetsFirst

/-- A fact about something else holds wherever the computation goes on. -/
theorem Meets.const
    {fact : Prop} (holds : fact) (computation : Except Error Value) :
    Meets (fun _ => True) (fun _ => fact) computation := by
  cases computation with
  | error error => exact True.intro
  | ok value => exact holds

end Shell.Guarded
