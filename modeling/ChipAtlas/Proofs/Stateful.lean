/-!
# Work that keeps its state when it fails

Reading, writing and ciphering are carried out on a state that is kept also by a failure. The laws
here take a sequence of two such works apart, from the front (`bind_of_ok`, `bind_of_error`) and
from its outcome (`exists_of_bind_eq_ok`).
-/

namespace ChipAtlas.Stateful

variable {ε σ α β : Type} {m : EStateM ε σ α} {f : α → EStateM ε σ β} {s s' : σ}

theorem error_ne_ok {e : ε} {a : α} : (.error e s : EStateM.Result ε σ α) ≠ .ok a s' := by simp

theorem ok_ne_error {e : ε} {a : α} : (.ok a s : EStateM.Result ε σ α) ≠ .error e s' := by simp

theorem bind_of_ok {a : α} (h : m s = .ok a s') : (m >>= f) s = f a s' := by
  change EStateM.bind m f s = _
  rw [EStateM.bind, h]

theorem bind_of_error {e : ε} (h : m s = .error e s') : (m >>= f) s = .error e s' := by
  change EStateM.bind m f s = _
  rw [EStateM.bind, h]

/-- What succeeds as a whole succeeds in both parts. -/
theorem exists_of_bind_eq_ok {b : β} {s'' : σ} (h : (m >>= f) s = .ok b s'') :
    ∃ a s', m s = .ok a s' ∧ f a s' = .ok b s'' := by
  cases hm : m s with
  | ok a s' => exact ⟨a, s', rfl, by rwa [bind_of_ok hm] at h⟩
  | error e s' =>
    rw [bind_of_error hm] at h
    exact absurd h error_ne_ok

theorem bind_eq_ok {b : β} {s'' : σ} :
    (m >>= f) s = .ok b s'' ↔ ∃ a s', m s = .ok a s' ∧ f a s' = .ok b s'' := by
  refine ⟨exists_of_bind_eq_ok, ?_⟩
  rintro ⟨a, s', hm, hf⟩
  rw [bind_of_ok hm, hf]

theorem map_of_ok {g : α → β} {a : α} (h : m s = .ok a s') : (g <$> m) s = .ok (g a) s' := by
  change EStateM.map g m s = _
  rw [EStateM.map, h]

theorem map_of_error {g : α → β} {e : ε} (h : m s = .error e s') :
    (g <$> m) s = .error e s' := by
  change EStateM.map g m s = _
  rw [EStateM.map, h]

theorem exists_of_map_eq_ok {g : α → β} {b : β} (h : (g <$> m) s = .ok b s') :
    ∃ a, m s = .ok a s' ∧ g a = b := by
  cases hm : m s with
  | ok a s₁ =>
    rw [map_of_ok hm] at h
    obtain ⟨rfl, rfl⟩ := EStateM.Result.ok.inj h
    exact ⟨a, rfl, rfl⟩
  | error e s₁ =>
    rw [map_of_error hm] at h
    exact absurd h error_ne_ok

theorem pure_eq_ok {a b : α} : (pure a : EStateM ε σ α) s = .ok b s' ↔ a = b ∧ s = s' := by
  refine ⟨EStateM.Result.ok.inj, ?_⟩
  rintro ⟨rfl, rfl⟩
  rfl

/-! ### Outcomes -/

/-- The state in which a work ends, whether it succeeds or not. -/
def endState : EStateM.Result ε σ α → σ
  | .ok _ s => s
  | .error _ s => s

/-- The same outcome with another state. -/
def mapState (g : σ → σ) : EStateM.Result ε σ α → EStateM.Result ε σ α
  | .ok a s => .ok a (g s)
  | .error e s => .error e (g s)

@[simp] theorem endState_mapState (g : σ → σ) (r : EStateM.Result ε σ α) :
    endState (mapState g r) = g (endState r) := by
  cases r <;> rfl

instance decEqResult [DecidableEq ε] [DecidableEq σ] [DecidableEq α] :
    DecidableEq (EStateM.Result ε σ α)
  | .ok a s, .ok a' s' => decidable_of_iff (a = a' ∧ s = s') (by simp)
  | .error e s, .error e' s' => decidable_of_iff (e = e' ∧ s = s') (by simp)
  | .ok _ _, .error _ _ => isFalse ok_ne_error
  | .error _ _, .ok _ _ => isFalse error_ne_ok

end ChipAtlas.Stateful
