import SearchBox.Error
import SearchBox.Query.Basic

/-!
# Writes

A `Write` changes a query in place and may fail. What was written before a failure stays, so the
result of a write is a query together with success or an error, and not one of the two.

Writes are put together from a refusal (`fail`), a change that succeeds (`change`), and a step that is
worked out before anything else happens (`after`).
-/

namespace SearchBox

/-- Changes a query, and may have changed it before it fails. -/
abbrev Write := Query → Query × Except Error Unit

namespace Write

variable {α : Type} {q d : Query} {e : Error}

/-- Leaves the query alone. -/
def done : Write := fun q => (q, .ok ())

/-- Refuses, and leaves the query alone. -/
def fail (e : Error) : Write := fun q => (q, .error e)

/-- Changes the query. -/
def change (f : Query → Query) : Write := fun q => (f q, .ok ())

/-- Works out a value and writes with it, or fails as it does. -/
def after (r : Except Error α) (next : α → Write) : Write :=
  match r with
  | .error e => fail e
  | .ok a => next a

@[simp] theorem after_ok (a : α) (next : α → Write) : after (.ok a) next = next a := rfl

@[simp] theorem after_error (e : Error) (next : α → Write) : after (.error e) next = fail e := rfl

@[simp] theorem done_eq_ok : done q = (d, .ok ()) ↔ q = d := by
  simp [done]

@[simp] theorem fail_ne_ok : fail e q ≠ (d, .ok ()) := by
  simp [fail]

@[simp] theorem change_eq_ok {f : Query → Query} : change f q = (d, .ok ()) ↔ f q = d := by
  simp [change]

@[simp] theorem fail_eq_error {e' : Error} : (fail e' q).2 = .error e ↔ e' = e := by
  simp [fail]

@[simp] theorem change_ne_error {f : Query → Query} : (change f q).2 ≠ .error e := nofun

/-- A write succeeds after a value if the value can be worked out and the rest succeeds with it. -/
theorem after_eq_ok {r : Except Error α} {next : α → Write} :
    after r next q = (d, .ok ()) ↔ ∃ a, r = .ok a ∧ next a q = (d, .ok ()) := by
  cases r <;> simp

/-- A change after a value is the only thing that happens, once the value can be worked out. -/
theorem after_change_eq_ok {r : Except Error α} {f : α → Query → Query} :
    after r (fun a => change (f a)) q = (d, .ok ()) ↔ ∃ a, r = .ok a ∧ f a q = d := by
  simp only [after_eq_ok, change_eq_ok]

/-- Then it fails exactly as the value does. -/
theorem after_change_eq_error {r : Except Error α} {f : α → Query → Query} :
    (after r (fun a => change (f a)) q).2 = .error e ↔ r = .error e := by
  cases r <;> simp

end Write

end SearchBox
