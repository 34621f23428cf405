import Mathlib.Data.List.Nodup
import Mathlib.Data.List.Pairwise
import SearchBox.Config.Basic
import SearchBox.Proofs.Failure

/-!
# What the check of a configuration ensures

In a configuration that passes the check the names of the fields are all different, and the pairs
are made of fields that belong to one pair each.
-/

namespace SearchBox

universe u v

/-- Lists without a common member are told apart by each of their members. -/
theorem eq_of_nodup_flatMap {α : Type u} {β : Type v} {f : α → List β} {as : List α}
    (h : (as.flatMap f).Nodup) {a a' : α} (ha : a ∈ as) (ha' : a' ∈ as) {b : β} (hb : b ∈ f a)
    (hb' : b ∈ f a') : a = a' := by
  by_contra hne
  have hdisjoint := (List.nodup_flatMap.1 h).2
  have hsymm : Std.Symm (Function.onFun List.Disjoint f) := ⟨fun _ _ h _ hp hp' => h hp' hp⟩
  exact hdisjoint.forall ha ha' hne hb hb'

namespace Config

variable {c : Config}

/-- Fields that pass the check have different names, also from those that were seen before. -/
theorem nodup_of_checkFields {seen : List String} {fs : List FieldConfig}
    (h : c.checkFields seen fs = .ok ()) :
    (fs.map FieldConfig.name).Nodup ∧ ∀ f ∈ fs, f.name ∉ seen := by
  -- Every field joins the names seen, so they are general in the induction.
  induction fs generalizing seen with
  | nil => simp
  | cons f fs ih =>
    unfold checkFields at h
    split at h
    · cases h
    · rename_i hseen
      cases hf : c.checkField f with
      | error e =>
        rw [hf] at h
        cases h
      | ok _ =>
        rw [hf] at h
        obtain ⟨hnodup, hrest⟩ := ih h
        have hfresh : f.name ∉ fs.map FieldConfig.name := by
          rintro hmem
          obtain ⟨g, hg, hname⟩ := List.mem_map.1 hmem
          exact hrest g hg (by simp [hname])
        refine ⟨List.nodup_cons.2 ⟨hfresh, hnodup⟩, fun g hg => ?_⟩
        rcases List.mem_cons.1 hg with rfl | hg
        · simpa using hseen
        · exact fun hmem => hrest g hg (List.mem_cons_of_mem _ hmem)

/-- Fields that pass the check have sensible options. -/
theorem checkField_of_checkFields {seen : List String} {fs : List FieldConfig}
    (h : c.checkFields seen fs = .ok ()) : ∀ f ∈ fs, c.checkField f = .ok () := by
  induction fs generalizing seen with
  | nil => simp
  | cons f fs ih =>
    unfold checkFields at h
    split at h
    · cases h
    · obtain ⟨_, hf, hrest⟩ := bind_eq_ok.1 h
      exact List.forall_mem_cons.2 ⟨hf, ih hrest⟩

/-- Paired names that pass the check are those of fields, and come once. -/
theorem nodup_of_checkPaired {seen names : List String} (h : c.checkPaired seen names = .ok ()) :
    names.Nodup ∧ (∀ name ∈ names, name ∈ c.names) ∧ ∀ name ∈ names, name ∉ seen := by
  induction names generalizing seen with
  | nil => simp
  | cons name rest ih =>
    unfold checkPaired at h
    split at h
    · cases h
    rename_i hname
    split at h
    · cases h
    rename_i hseen
    obtain ⟨hnodup, hknown, hrest⟩ := ih h
    have hfresh : name ∉ rest := fun hmem => hrest name hmem (by simp)
    refine ⟨List.nodup_cons.2 ⟨hfresh, hnodup⟩, ?_, ?_⟩
    · intro other hother
      rcases List.mem_cons.1 hother with rfl | hother
      · simpa using hname
      · exact hknown other hother
    · intro other hother
      rcases List.mem_cons.1 hother with rfl | hother
      · simpa using hseen
      · exact fun hmem => hrest other hother (List.mem_cons_of_mem _ hmem)

theorem checkFields_of_check (h : c.check = .ok ()) : c.checkFields [] c.fields = .ok () := by
  unfold check at h
  split at h
  · cases h
  · exact (bind_eq_ok.1 h).choose_spec.1

theorem checkPaired_of_check (h : c.check = .ok ()) : c.checkPaired [] c.pairedNames = .ok () := by
  unfold check at h
  split at h
  · cases h
  · exact (bind_eq_ok.1 h).choose_spec.2

/-- A checked configuration has no two fields of the same name. -/
theorem nodup_names_of_check (h : c.check = .ok ()) : c.names.Nodup :=
  (nodup_of_checkFields (checkFields_of_check h)).1

/-- A checked field with bounds has both of them. -/
theorem hasBounds_of_check (h : c.check = .ok ()) {f : FieldConfig} (hf : f ∈ c.fields)
    (hkind : f.kind = .boundedIntegers) : hasBounds f = true := by
  have hfield := checkField_of_checkFields (checkFields_of_check h) f hf
  unfold checkField at hfield
  split at hfield
  · cases hfield
  · rename_i hbounds
    simpa [hkind] using hbounds

/-- A checked configuration with a label field has aliases. -/
theorem isSome_aliases_of_check (h : c.check = .ok ()) {f : FieldConfig} (hf : f ∈ c.fields)
    (hkind : f.kind = .label) : c.aliases.isSome = true := by
  have hfield := checkField_of_checkFields (checkFields_of_check h) f hf
  rw [checkField, hkind, if_neg (by simp)] at hfield
  split at hfield
  · cases hfield
  · rename_i haliases
    simpa [Option.isSome_iff_ne_none, Option.isNone_iff_eq_none] using haliases

/-- In a checked configuration no field belongs to two pairs or twice to one. -/
theorem nodup_pairedNames_of_check (h : c.check = .ok ()) : c.pairedNames.Nodup :=
  (nodup_of_checkPaired (checkPaired_of_check h)).1

theorem mem_names_of_mem_pairedNames (h : c.check = .ok ()) {name : String}
    (hname : name ∈ c.pairedNames) : name ∈ c.names :=
  (nodup_of_checkPaired (checkPaired_of_check h)).2.1 name hname

end Config

end SearchBox
