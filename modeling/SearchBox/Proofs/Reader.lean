import SearchBox.Reader
import SearchBox.Proofs.Failure

/-!
# The errors of readers

A reader that refuses a token says that the token is no number, or that a denominator is zero. Both
are errors of the user.
-/

namespace SearchBox.Reader

/-- The error that a reader gives for a token. -/
def Refuses (token : List Char) (e : Error) : Prop :=
  e = .invalidNumber (String.ofList token) ∨ e = .rejected zeroDenominatorMessage

theorem Refuses.isInput {token : List Char} {e : Error} (h : Refuses token e) :
    e.isInput = true := by
  rcases h with rfl | rfl <;> rfl

theorem orInvalid_eq_ok {α : Type} {token : List Char} {a? : Option α} {a : α} :
    orInvalid token a? = .ok a ↔ a? = some a := by
  cases a? <;> simp

theorem orInvalid_eq_error {α : Type} {token : List Char} {a? : Option α} {e : Error} :
    orInvalid token a? = .error e ↔ a? = none ∧ e = .invalidNumber (String.ofList token) := by
  cases a? <;> simp [eq_comm]

theorem failsOnly_orInvalid {α : Type} (token : List Char) (a? : Option α) :
    FailsOnly (Refuses token) (orInvalid token a?) :=
  fun _ he => .inl (orInvalid_eq_error.1 he).2

theorem failsOnly_readInteger (token : List Char) :
    FailsOnly (Refuses token) (readInteger token) :=
  failsOnly_orInvalid token _

theorem failsOnly_readFraction (token : List Char) :
    FailsOnly (Refuses token) (readFraction token) := by
  unfold readFraction
  split
  · exact .error (Or.inl rfl)
  split
  · exact (failsOnly_orInvalid token _).map _
  split
  · exact .ite (.error (Or.inr rfl)) (.ok _)
  · exact .error (Or.inl rfl)

theorem failsOnly_readPlainRational (token : List Char) :
    FailsOnly (Refuses token) (readPlainRational token) := by
  unfold readPlainRational
  split
  · exact .error (Or.inl rfl)
  split
  · exact failsOnly_readFraction token
  split
  · exact (failsOnly_orInvalid token _).map _
  · exact failsOnly_orInvalid token _

/-! ### Readers whose errors are the user's -/

/-- Whatever the reader refuses, it is the user's error. -/
def BlamesUser (read : Reader) : Prop := ∀ token, FailsOnly (·.isInput = true) (read token)

theorem integer_blamesUser : BlamesUser integer := fun token =>
  ((failsOnly_readInteger token).map _).mono fun _ => Refuses.isInput

theorem double_blamesUser : BlamesUser double := fun token =>
  ((failsOnly_orInvalid token _).map _).mono fun _ => Refuses.isInput

theorem text_blamesUser : BlamesUser text := fun _ => .ok _

theorem rational_blamesUser : BlamesUser rational := fun token =>
  ((failsOnly_readFraction token).map _).mono fun _ => Refuses.isInput

theorem plainRational_blamesUser : BlamesUser plainRational := fun token =>
  ((failsOnly_readPlainRational token).map _).mono fun _ => Refuses.isInput

end SearchBox.Reader
