/-!
# Runs and how they end

A run changes a state and ends with a value or a fault. What it does to the state and how it ends
are looked at apart.

## The model

* `finalState`: the state that a run leaves, whether it fails or not.
* `outcome`: how a run ends, whatever it leaves behind.

## Results

* `bind_eq_ok_iff`, `bind_eq_error`, `finalState_bind`: two steps in a row.
* `decidableEqOk`, `decidableEqError`: whether a run ends in a given way is found out by running it.
  Only the ends of that kind need to be compared.
-/

namespace JackSyntax

variable {ε σ α β : Type}

/-- The state that an operation leaves, whether it fails or not. -/
def finalState : EStateM.Result ε σ α → σ
  | .ok _ state => state
  | .error _ state => state

/-- How a run ends, whatever it leaves behind. -/
def outcome : EStateM.Result ε σ α → Except ε α
  | .ok value _ => .ok value
  | .error fault _ => .error fault

/-! ## Steps in a row -/

section Bind

variable {x : EStateM ε σ α} {f : α → EStateM ε σ β} {start after : σ}

theorem bind_eq_ok_iff {value : β} :
    (x >>= f) start = .ok value after ↔
      ∃ result middle, x start = .ok result middle ∧ f result middle = .ok value after := by
  simp only [bind, EStateM.bind]
  cases x start with
  | error fault middle => simp
  | ok result middle =>
    simp only [EStateM.Result.ok.injEq]
    exact ⟨fun h => ⟨result, middle, ⟨rfl, rfl⟩, h⟩, fun ⟨_, _, ⟨hresult, hmiddle⟩, h⟩ => by
      rwa [hresult, hmiddle]⟩

theorem bind_eq_error {fault : ε} (h : (x >>= f) start = .error fault after) :
    x start = .error fault after ∨
    ∃ value middle, x start = .ok value middle ∧ f value middle = .error fault after := by
  simp only [bind, EStateM.bind] at h
  split at h
  · rename_i value middle hrun
    exact .inr ⟨value, middle, hrun, h⟩
  · rename_i hrun
    cases h
    exact .inl hrun

theorem finalState_bind (x : EStateM ε σ α) (f : α → EStateM ε σ β) (start : σ) :
    (∃ value middle, x start = .ok value middle ∧
      finalState ((x >>= f) start) = finalState (f value middle)) ∨
    ∃ fault, x start = .error fault (finalState ((x >>= f) start)) := by
  simp only [bind, EStateM.bind]
  cases x start with
  | ok value middle => exact .inl ⟨value, middle, rfl, rfl⟩
  | error fault middle => exact .inr ⟨fault, rfl⟩

theorem mapError_eq_ok_iff {ε' : Type} {f : ε → ε'} {x : Except ε α} {value : α} :
    x.mapError f = .ok value ↔ x = .ok value := by
  cases x with
  | error fault => exact ⟨nofun, nofun⟩
  | ok found =>
    constructor <;> intro h
    · rw [Except.ok.inj h]
    · rw [Except.ok.inj h]
      rfl

theorem except_bind_eq_ok_iff {x : Except ε α} {f : α → Except ε β} {value : β} :
    (x >>= f) = .ok value ↔ ∃ found, x = .ok found ∧ f found = .ok value := by
  cases x <;> simp [bind, Except.bind]

end Bind

theorem eq_ok_of_toOption {x : Except ε α} {value : α} (h : x.toOption = some value) :
    x = .ok value := by
  cases x with
  | error fault => cases h
  | ok found => rw [Option.some.inj h]

/-! ## Ends that can be found out -/

/-- Values are compared; faults need not be comparable. -/
instance decidableEqOk [DecidableEq α] (x : Except ε α) (value : α) : Decidable (x = .ok value) :=
  match x with
  | .ok found => decidable_of_iff (found = value) (by simp)
  | .error _ => isFalse nofun

/-- Faults are compared; values need not be comparable. -/
instance decidableEqError [DecidableEq ε] (x : Except ε α) (fault : ε) :
    Decidable (x = .error fault) :=
  match x with
  | .ok _ => isFalse nofun
  | .error found => decidable_of_iff (found = fault) (by simp)

/-- Faults and the states that they leave are compared. -/
instance decidableEqErrorState [DecidableEq ε] [DecidableEq σ] (x : EStateM.Result ε σ α)
    (fault : ε) (after : σ) : Decidable (x = .error fault after) :=
  match x with
  | .ok _ _ => isFalse nofun
  | .error found left => decidable_of_iff (found = fault ∧ left = after) (by simp)

theorem eq_ok_of_outcome {x : EStateM.Result ε σ α} {value : α} {after : σ}
    (hends : outcome x = .ok value) (hleft : finalState x = after) : x = .ok value after := by
  cases x with
  | ok found left =>
    obtain rfl : found = value := Except.ok.inj hends
    obtain rfl : left = after := hleft
    rfl
  | error fault left => cases hends

end JackSyntax
