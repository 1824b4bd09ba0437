/-!
# How programs end

A program that works on a state ends with a value or with a fault, and either way with a state. These
are the few laws by which the end of a composed program is read off the ends of its parts.

Main statements: `bind_eq_ok_iff`, two programs in a row succeed exactly if the first one does and the
second one does where the first one ended, and `bind_eq_error_iff` for how they fail.
-/

namespace EditionMarket.Program

variable {ε τ α β : Type}

/-- After a success the second program goes on. -/
theorem bind_of_ok {first : EStateM ε τ α} {state middle : τ} {value : α}
    (h : first state = .ok value middle) (second : α → EStateM ε τ β) :
    (first >>= second) state = second value middle := by
  show EStateM.bind first second state = second value middle
  unfold EStateM.bind
  rw [h]

/-- After a fault the second program is not started. -/
theorem bind_of_error {first : EStateM ε τ α} {state final : τ} {fault : ε}
    (h : first state = .error fault final) (second : α → EStateM ε τ β) :
    (first >>= second) state = .error fault final := by
  show EStateM.bind first second state = .error fault final
  unfold EStateM.bind
  rw [h]

/-- Two programs in a row succeed exactly if the first one does, and the second one does where the
first one ended. -/
theorem bind_eq_ok_iff {first : EStateM ε τ α} {second : α → EStateM ε τ β} {state final : τ}
    {result : β} :
    (first >>= second) state = .ok result final ↔
      ∃ value middle, first state = .ok value middle ∧ second value middle = .ok result final := by
  cases h : first state with
  | ok value middle =>
    rw [bind_of_ok h]
    constructor
    · intro hs
      exact ⟨value, middle, rfl, hs⟩
    · rintro ⟨_, _, heq, hs⟩
      cases heq
      exact hs
  | error fault middle =>
    rw [bind_of_error h]
    constructor
    · intro hs
      cases hs
    · rintro ⟨_, _, heq, -⟩
      cases heq

/-- Two programs in a row fail exactly if the first one does, or if it succeeds and the second one fails
where the first one ended. -/
theorem bind_eq_error_iff {first : EStateM ε τ α} {second : α → EStateM ε τ β} {state final : τ}
    {fault : ε} :
    (first >>= second) state = .error fault final ↔
      first state = .error fault final ∨
        ∃ value middle, first state = .ok value middle ∧ second value middle = .error fault final := by
  cases h : first state with
  | ok value middle =>
    rw [bind_of_ok h]
    constructor
    · intro hs
      exact .inr ⟨value, middle, rfl, hs⟩
    · rintro (heq | ⟨_, _, heq, hs⟩)
      · cases heq
      · cases heq
        exact hs
  | error fault' middle =>
    rw [bind_of_error h]
    constructor
    · intro hs
      cases hs
      exact .inl rfl
    · rintro (heq | ⟨_, _, heq, -⟩)
      · cases heq
        rfl
      · cases heq

theorem pure_eq_ok_iff {value result : α} {state final : τ} :
    (pure value : EStateM ε τ α) state = .ok result final ↔ result = value ∧ final = state := by
  constructor
  · intro h
    cases h
    exact ⟨rfl, rfl⟩
  · rintro ⟨rfl, rfl⟩
    rfl

theorem throw_ne_ok {fault : ε} {result : α} {state final : τ} :
    ¬ (throw fault : EStateM ε τ α) state = .ok result final := by
  intro h
  cases h

/-- Whoever discards a value runs the program and answers with nothing. -/
theorem discard_eq_bind (program : EStateM ε τ α) :
    Functor.discard program = program >>= fun _ => pure () := by
  funext state
  show EStateM.map _ program state = EStateM.bind program _ state
  unfold EStateM.map EStateM.bind
  cases program state <;> rfl

/-- Whoever discards a value ends where the program ends. -/
theorem discard_of_ok {program : EStateM ε τ α} {state final : τ} {value : α}
    (h : program state = .ok value final) : Functor.discard program state = .ok () final := by
  rw [discard_eq_bind, bind_of_ok h]
  rfl

/-- A program that stops under a condition, and else goes on, succeeds exactly if the condition does not
hold and what follows succeeds. -/
theorem stop_or_go_eq_ok_iff {c : Prop} [Decidable c] {stop : EStateM ε τ Unit}
    {next : Unit → EStateM ε τ β} {state final : τ} {result : β}
    (hstop : ∀ value middle, ¬ stop state = .ok value middle) :
    (if c then stop >>= next else next ()) state = .ok result final ↔
      ¬ c ∧ next () state = .ok result final := by
  by_cases h : c
  -- Under the condition the program stops before it comes to `next`.
  · rw [if_pos h, bind_eq_ok_iff]
    constructor
    · rintro ⟨value, middle, hs, -⟩
      exact absurd hs (hstop value middle)
    · rintro ⟨hn, -⟩
      exact absurd h hn
  · rw [if_neg h]
    exact (and_iff_right h).symm

end EditionMarket.Program
