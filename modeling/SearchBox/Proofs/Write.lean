import SearchBox.Write
import SearchBox.Proofs.Failure
import SearchBox.Proofs.Query

/-!
# Laws of writes

Three properties of a write pass through the ways in which writes are put together.

* It `Merges`: what it makes of the empty query is merged into any other one.
* `FailsOnly` holds of its result.
* It `IsAtomic`: when it fails, the query is as before.

None of them holds of every write. A write that first changes the query and then refuses is not
atomic, and one that looks at the query need not merge.
-/

namespace SearchBox

/-! ### Writes that merge -/

/-- The write makes a simple query of the empty one, and merges it into every query that constrains
none of its keys. -/
def Merges (w : Write) : Prop :=
  ∀ d, w .empty = (d, .ok ()) →
    d.Simple ∧ ∀ q : Query, q.Disjoint d → w q = (q.update d, .ok ())

theorem merges_fail (e : Error) : Merges (.fail e) := by
  intro d hd
  exact absurd hd Write.fail_ne_ok

theorem merges_done : Merges .done := by
  intro d hd
  cases Write.done_eq_ok.1 hd
  exact ⟨Query.simple_empty, fun q _ => Write.done_eq_ok.2 (Query.update_empty q).symm⟩

/-- What is written after a value merges, if it does with every value that there can be. -/
theorem merges_after {α : Type} {r : Except Error α} {next : α → Write}
    (h : ∀ a, r = .ok a → Merges (next a)) : Merges (.after r next) := by
  cases r with
  | error e => exact merges_fail e
  | ok a => exact h a rfl

/-- A write merges if it makes the same constraint of all queries that have none on its key. -/
theorem merges_of_insert {w : Write} {key : String} {c : Constraint}
    (h : ∀ q : Query, key ∉ q.fields.keys → w q = (q.insert key c, .ok ())) : Merges w := by
  intro d hd
  rw [h .empty (by simp [Query.empty])] at hd
  cases hd
  rw [← Query.update_single, Query.empty_update]
  refine ⟨Query.simple_single key c, fun q hq => ?_⟩
  rw [h q (hq key (by simp [Query.single])), Query.update_single]

theorem merges_insert (key : String) (c : Constraint) : Merges (.change (·.insert key c)) :=
  merges_of_insert fun _ _ => rfl

theorem merges_fold {f : Fragment} (h : f.query.Simple) : Merges (.change (·.fold f)) := by
  intro d hd
  cases Write.change_eq_ok.1 hd
  rw [Query.fold_eq_update, Query.empty_update]
  exact ⟨h, fun q _ => Write.change_eq_ok.2 (Query.fold_eq_update q f)⟩

namespace Write

variable {α : Type} {q : Query}

/-! ### How writes fail -/

theorem failsOnly_after {P : Error → Prop} {r : Except Error α} {next : α → Write}
    (hr : FailsOnly P r) (hnext : ∀ a, FailsOnly P (next a q).2) :
    FailsOnly P (after r next q).2 := by
  cases r with
  | error e => exact .error (hr e rfl)
  | ok a => exact hnext a

/-! ### Atomic writes -/

/-- A write that fails has left the query as it was. -/
def IsAtomic (w : Write) : Prop := ∀ q e, (w q).2 = .error e → (w q).1 = q

theorem isAtomic_done : IsAtomic done := fun _ _ _ => rfl

theorem isAtomic_fail (e : Error) : IsAtomic (fail e) := fun _ _ _ => rfl

theorem isAtomic_change (f : Query → Query) : IsAtomic (change f) := by
  intro q e h
  exact absurd h change_ne_error

/-- A value is worked out without the query, so a failure there leaves nothing behind. -/
theorem isAtomic_after {r : Except Error α} {next : α → Write}
    (h : ∀ a, r = .ok a → IsAtomic (next a)) : IsAtomic (after r next) := by
  cases r with
  | error e => exact isAtomic_fail e
  | ok a => exact h a rfl

end Write

end SearchBox
