import Mathlib.Data.List.Forall2
import SearchBox.Error

/-!
# How computations fail

`FailsOnly P x` says that the computation `x` gives a value or fails with an error that has the
property `P`. The property passes through the ways in which computations are put together, so that
the errors of a box follow from the errors of its readers. A reading of a whole list fails like one
of its members, and otherwise reads every member (`forall₂_of_mapM`).
-/

namespace SearchBox

universe u v w

variable {α : Type u} {β : Type u}

/-- The computation gives a value, or an error with the property. -/
def FailsOnly (P : Error → Prop) (x : Except Error α) : Prop := ∀ e, x = .error e → P e

namespace FailsOnly

variable {P Q : Error → Prop}

theorem ok (a : α) : FailsOnly P (.ok a : Except Error α) := by
  intro e h
  cases h

theorem error {e : Error} (h : P e) : FailsOnly P (.error e : Except Error α) := by
  intro e' h'
  cases h'
  exact h

theorem mono {x : Except Error α} (hx : FailsOnly P x) (h : ∀ e, P e → Q e) : FailsOnly Q x :=
  fun e he => h e (hx e he)

theorem map {x : Except Error α} (hx : FailsOnly P x) (f : α → β) : FailsOnly P (x.map f) := by
  cases x with
  | error e => exact error (hx e rfl)
  | ok a => exact ok (f a)

theorem bind {x : Except Error α} {f : α → Except Error β} (hx : FailsOnly P x)
    (hf : ∀ a, FailsOnly P (f a)) : FailsOnly P (x.bind f) := by
  cases x with
  | error e => exact error (hx e rfl)
  | ok a => exact hf a

theorem ite {c : Prop} [Decidable c] {x y : Except Error α} (hx : FailsOnly P x)
    (hy : FailsOnly P y) : FailsOnly P (if c then x else y) := by
  split
  · exact hx
  · exact hy

end FailsOnly

/-! ### Results -/

section Results

variable {ε : Type v}

theorem map_eq_ok {x : Except ε α} {f : α → β} {b : β} :
    x.map f = .ok b ↔ ∃ a, x = .ok a ∧ f a = b := by
  cases x <;> simp [Except.map]

theorem bind_eq_ok {x : Except ε α} {f : α → Except ε β} {b : β} :
    x.bind f = .ok b ↔ ∃ a, x = .ok a ∧ f a = .ok b := by
  cases x <;> simp [Except.bind]

theorem map_eq_error {x : Except ε α} {f : α → β} {e : ε} :
    x.map f = .error e ↔ x = .error e := by
  cases x <;> simp [Except.map]

/-! ### Lists -/

variable {f : α → Except ε β}

theorem mapM_nil_eq_ok {bs : List β} : [].mapM f = .ok bs ↔ bs = [] := by
  rw [List.mapM_nil]
  simp [pure, Except.pure, eq_comm]

theorem mapM_cons_eq_ok {a : α} {as : List α} {bs : List β} :
    (a :: as).mapM f = .ok bs ↔ ∃ b cs, f a = .ok b ∧ as.mapM f = .ok cs ∧ bs = b :: cs := by
  rw [List.mapM_cons]
  cases f a with
  | error e => simp [bind, Except.bind]
  | ok b =>
    cases as.mapM f with
    | error e => simp [bind, Except.bind]
    | ok cs => simp [bind, Except.bind, pure, Except.pure, eq_comm]

/-- A list that is read as a whole is read member by member. -/
theorem forall₂_of_mapM {as : List α} {bs : List β} (h : as.mapM f = .ok bs) :
    List.Forall₂ (fun a b => f a = .ok b) as bs := by
  induction as generalizing bs with
  | nil => cases h; exact .nil
  | cons a as ih =>
    obtain ⟨b, cs, hb, hcs, rfl⟩ := mapM_cons_eq_ok.1 h
    exact .cons hb (ih hcs)

/-- A list is read if its members are. -/
theorem mapM_of_forall₂ {as : List α} {bs : List β}
    (h : List.Forall₂ (fun a b => f a = .ok b) as bs) : as.mapM f = .ok bs := by
  induction h with
  | nil => rfl
  | cons hb _ ih => exact mapM_cons_eq_ok.2 ⟨_, _, hb, ih, rfl⟩

/-- Members can be matched one by one if each of them has a match. -/
theorem exists_forall₂_iff {R : α → β → Prop} {as : List α} :
    (∃ bs, List.Forall₂ R as bs) ↔ ∀ a ∈ as, ∃ b, R a b := by
  induction as with
  | nil => simp
  | cons a as ih =>
    rw [List.forall_mem_cons, ← ih]
    constructor
    · rintro ⟨bs, h⟩
      cases h with
      | cons hb hbs => exact ⟨⟨_, hb⟩, ⟨_, hbs⟩⟩
    · rintro ⟨⟨b, hb⟩, ⟨bs, hbs⟩⟩
      exact ⟨b :: bs, .cons hb hbs⟩

/-- What holds of the members of one list exactly when it holds of their matches, holds somewhere in
the one list exactly when it holds somewhere in the other. -/
theorem exists_mem_congr_of_forall₂ {P : β → Prop} {Q : α → Prop} {as : List α} {bs : List β}
    (h : List.Forall₂ (fun a b => P b ↔ Q a) as bs) : (∃ b ∈ bs, P b) ↔ ∃ a ∈ as, Q a := by
  induction h with
  | nil => simp
  | cons hab _ ih => simp only [List.exists_mem_cons_iff, hab, ih]

theorem length_of_mapM {as : List α} {bs : List β} (h : as.mapM f = .ok bs) :
    bs.length = as.length :=
  (forall₂_of_mapM h).length_eq.symm

theorem exists_of_mem_forall₂ {R : α → β → Prop} {as : List α} {bs : List β}
    (h : List.Forall₂ R as bs) {b : β} (hb : b ∈ bs) : ∃ a ∈ as, R a b := by
  induction h with
  | nil => cases hb
  | cons hab _ ih =>
    rcases List.mem_cons.1 hb with rfl | hb
    · exact ⟨_, List.mem_cons_self, hab⟩
    · obtain ⟨a', ha', hab'⟩ := ih hb
      exact ⟨a', List.mem_cons_of_mem _ ha', hab'⟩

/-- What is read from a list is read from one of its members. -/
theorem exists_of_mem_mapM {as : List α} {bs : List β} (h : as.mapM f = .ok bs) {b : β}
    (hb : b ∈ bs) : ∃ a ∈ as, f a = .ok b :=
  exists_of_mem_forall₂ (forall₂_of_mapM h) hb

/-- What is read from a member of a list is in the result. -/
theorem exists_mem_of_mapM {as : List α} {bs : List β} (h : as.mapM f = .ok bs) {a : α}
    (ha : a ∈ as) : ∃ b ∈ bs, f a = .ok b := by
  induction as generalizing bs with
  | nil => simp at ha
  | cons a' as ih =>
    obtain ⟨b, cs, hb, hcs, rfl⟩ := mapM_cons_eq_ok.1 h
    rcases List.mem_cons.1 ha with rfl | ha
    · exact ⟨b, by simp, hb⟩
    · obtain ⟨b', hb', hfa⟩ := ih hcs ha
      exact ⟨b', by simp [hb'], hfa⟩

/-- What the members of the result keep of the members of the list, the whole result keeps. -/
theorem map_eq_map_of_mapM {γ : Type w} {as : List α} {bs : List β} {g : β → γ} {h : α → γ}
    (hbs : as.mapM f = .ok bs) (hgh : ∀ a b, f a = .ok b → g b = h a) : bs.map g = as.map h := by
  induction as generalizing bs with
  | nil => rw [mapM_nil_eq_ok.1 hbs, List.map_nil, List.map_nil]
  | cons a as ih =>
    obtain ⟨b, cs, hb, hcs, rfl⟩ := mapM_cons_eq_ok.1 hbs
    rw [List.map_cons, List.map_cons, hgh a b hb, ih hcs]

/-- If one reading of each member is another one with a map after it, so it is for the list. -/
theorem mapM_eq_map_mapM {γ : Type u} {f : α → Except ε β} {g : α → Except ε γ} {h : β → γ}
    {as : List α} (hfg : ∀ a ∈ as, g a = (f a).map h) :
    as.mapM g = (as.mapM f).map (List.map h) := by
  induction as with
  | nil => rfl
  | cons a as ih =>
    rw [List.forall_mem_cons] at hfg
    rw [List.mapM_cons, List.mapM_cons, hfg.1, ih hfg.2]
    cases f a with
    | error e => rfl
    | ok b => cases as.mapM f <;> rfl

/-- A reading that can only give one value for each member is a map. -/
theorem eq_map_of_mapM {as : List α} {bs : List β} {g : α → β} (h : as.mapM f = .ok bs)
    (hg : ∀ a b, f a = .ok b → b = g a) : bs = as.map g :=
  (List.map_id bs).symm.trans (map_eq_map_of_mapM h hg)

/-- A list in another order is read with the results in that order. -/
theorem exists_mapM_of_perm {as as' : List α} {bs : List β} (h : as.Perm as')
    (hbs : as.mapM f = .ok bs) : ∃ bs', as'.mapM f = .ok bs' ∧ bs.Perm bs' := by
  induction h generalizing bs with
  | nil => exact ⟨bs, hbs, .refl bs⟩
  | cons a _ ih =>
    obtain ⟨b, cs, hb, hcs, rfl⟩ := mapM_cons_eq_ok.1 hbs
    obtain ⟨cs', hcs', hperm⟩ := ih hcs
    exact ⟨b :: cs', mapM_cons_eq_ok.2 ⟨b, cs', hb, hcs', rfl⟩, hperm.cons b⟩
  | swap a a' as =>
    obtain ⟨b', cs, hb', hcs, rfl⟩ := mapM_cons_eq_ok.1 hbs
    obtain ⟨b, ds, hb, hds, rfl⟩ := mapM_cons_eq_ok.1 hcs
    have hrest := mapM_cons_eq_ok.2 ⟨b', ds, hb', hds, rfl⟩
    exact ⟨b :: b' :: ds, mapM_cons_eq_ok.2 ⟨b, b' :: ds, hb, hrest, rfl⟩, .swap b b' ds⟩
  | trans _ _ ih ih' =>
    obtain ⟨cs, hcs, hperm⟩ := ih hbs
    obtain ⟨ds, hds, hperm'⟩ := ih' hcs
    exact ⟨ds, hds, hperm.trans hperm'⟩

/-- **A list fails like the first of its members that fails.** -/
theorem mapM_eq_error {as : List α} {e : ε} :
    as.mapM f = .error e ↔ ∃ before a after, as = before ++ a :: after ∧
      (∀ a' ∈ before, ∃ b, f a' = .ok b) ∧ f a = .error e := by
  induction as with
  | nil =>
    constructor
    · intro h
      cases h
    · rintro ⟨before, a, after, h, -⟩
      simp at h
  | cons a as ih =>
    rw [List.mapM_cons]
    cases ha : f a with
    | error e' =>
      constructor
      · intro h
        cases h
        exact ⟨[], a, as, rfl, by simp, ha⟩
      · rintro ⟨_ | ⟨a', before⟩, b, after, heq, hbefore, hb⟩
        · cases heq
          rw [← ha, hb]
          rfl
        · cases heq
          obtain ⟨c, hc⟩ := hbefore a (by simp)
          rw [ha] at hc
          cases hc
    | ok c =>
      have htail : (do let bs ← as.mapM f; pure (c :: bs) : Except ε (List β)) = .error e ↔
          as.mapM f = .error e := by
        cases as.mapM f <;> simp [bind, Except.bind, pure, Except.pure]
      refine htail.trans (ih.trans ⟨?_, ?_⟩)
      · rintro ⟨before, b, after, rfl, hbefore, hb⟩
        exact ⟨a :: before, b, after, rfl, List.forall_mem_cons.2 ⟨⟨c, ha⟩, hbefore⟩, hb⟩
      · rintro ⟨_ | ⟨a', before⟩, b, after, heq, hbefore, hb⟩
        · cases heq
          rw [ha] at hb
          cases hb
        · cases heq
          exact ⟨before, b, after, rfl, fun x hx => hbefore x (List.mem_cons_of_mem a hx), hb⟩

/-- A list fails like one of its members. -/
theorem exists_of_mapM_error {as : List α} {e : ε} (h : as.mapM f = .error e) :
    ∃ a ∈ as, f a = .error e := by
  obtain ⟨before, a, after, rfl, -, ha⟩ := mapM_eq_error.1 h
  exact ⟨a, by simp, ha⟩

end Results

theorem FailsOnly.mapM {P : Error → Prop} {f : α → Except Error β} {as : List α}
    (h : ∀ a ∈ as, FailsOnly P (f a)) : FailsOnly P (as.mapM f) := by
  intro e he
  obtain ⟨a, ha, hfa⟩ := exists_of_mapM_error he
  exact h a ha e hfa

theorem FailsOnly.foldlM {P : Error → Prop} {f : β → α → Except Error β}
    (h : ∀ b a, FailsOnly P (f b a)) (as : List α) (b : β) : FailsOnly P (as.foldlM f b) := by
  induction as generalizing b with
  | nil => exact .ok b
  | cons a as ih =>
    rw [List.foldlM_cons]
    exact (h b a).bind ih

end SearchBox
