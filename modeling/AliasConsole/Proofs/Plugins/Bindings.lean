import AliasConsole.Plugins.Variables
import Mathlib.Data.Char
import Mathlib.Data.List.Lex
import Mathlib.Logic.Function.Basic

/-!
# Variables as a finite map

The bindings of the variables stand for a map from names to values if they are
ordered by name and every name is looked up in them as in the map.  Setting and
unsetting a variable change the map at its name, and keep the order.
-/

namespace AliasConsole

/-- The order in which bindings are kept is the lexicographic order of texts. -/
theorem before_iff_lt {a b : Text} : Text.before a b = true ↔ a < b := by
  induction a generalizing b with
  | nil =>
      cases b with
      | nil => simp [Text.before]
      | cons d more => simp [Text.before]
  | cons c rest ih =>
      cases b with
      | nil => simp [Text.before]
      | cons d more =>
          have hless : c.toNat < d.toNat ↔ c < d := Iff.rfl
          simp only [Text.before, Bool.or_eq_true, Bool.and_eq_true, decide_eq_true_eq,
            beq_iff_eq, ih, List.cons_lt_cons_iff, Char.toNat_inj, hless]

namespace Variables

/-- The bindings come by strictly increasing name. -/
def Ordered (bindings : List (Text × Text)) : Prop :=
  bindings.Pairwise fun a b => a.1 < b.1

/-- The variables are ordered and have the values of the map. -/
structure Represents (v : Variables) (map : Text → Option Text) : Prop where
  ordered : Ordered v.bindings
  get?_eq : ∀ name, v.get? name = map name

variable {name other value n old : Text} {bindings : List (Text × Text)}

theorem lookup_cons_eq :
    ((n, old) :: bindings).lookup other =
      if other = n then some old else bindings.lookup other := by
  rw [List.lookup_cons]
  by_cases h : other = n
  · rw [if_pos h, beq_iff_eq.mpr h]
  · rw [if_neg h, beq_eq_false_iff_ne.mpr h]

theorem lookup_insert :
    (insert name value bindings).lookup other =
      if other = name then some value else bindings.lookup other := by
  induction bindings with
  | nil => rw [insert, lookup_cons_eq]
  | cons binding rest ih =>
      obtain ⟨n, old⟩ := binding
      rw [insert]
      by_cases hsame : n = name
      · rw [if_pos hsame, lookup_cons_eq, lookup_cons_eq, hsame]
        split_ifs <;> rfl
      · rw [if_neg hsame]
        split_ifs with hbefore hother hother
        · rw [lookup_cons_eq, if_pos hother]
        · rw [lookup_cons_eq, if_neg hother]
        · rw [lookup_cons_eq, ih, if_pos hother, if_neg (hother ▸ Ne.symm hsame)]
        · rw [lookup_cons_eq, lookup_cons_eq, ih, if_neg hother]

theorem mem_insert {binding : Text × Text} (h : binding ∈ insert name value bindings) :
    binding = (name, value) ∨ binding ∈ bindings := by
  induction bindings with
  | nil => exact Or.inl (List.mem_singleton.mp h)
  | cons first rest ih =>
      obtain ⟨n, old⟩ := first
      rw [insert] at h
      split_ifs at h with hsame hbefore
      · rcases List.mem_cons.mp h with rfl | hrest
        · exact Or.inl rfl
        · exact Or.inr (List.mem_cons_of_mem _ hrest)
      · exact List.mem_cons.mp h
      · rcases List.mem_cons.mp h with rfl | hrest
        · exact Or.inr (by simp)
        · exact (ih hrest).imp_right (List.mem_cons_of_mem _)

theorem Ordered.insert (h : Ordered bindings) : Ordered (insert name value bindings) := by
  induction bindings with
  | nil => exact List.pairwise_singleton _ _
  | cons first rest ih =>
      obtain ⟨n, old⟩ := first
      obtain ⟨hfirst, hrest⟩ := List.pairwise_cons.mp h
      rw [Variables.insert]
      split_ifs with hsame hbefore
      · rw [hsame] at hfirst
        exact List.pairwise_cons.mpr ⟨hfirst, hrest⟩
      · have hless := before_iff_lt.mp hbefore
        refine List.pairwise_cons.mpr ⟨?_, h⟩
        exact List.forall_mem_cons.mpr ⟨hless, fun b hb => hless.trans (hfirst b hb)⟩
      · refine List.pairwise_cons.mpr ⟨fun b hb => ?_, ih hrest⟩
        rcases mem_insert hb with rfl | hb
        · exact lt_of_le_of_ne (not_lt.mp fun hlt => hbefore (before_iff_lt.mpr hlt)) hsame
        · exact hfirst b hb

theorem lookup_filter_ne :
    (bindings.filter fun binding => binding.1 != name).lookup other =
      if other = name then none else bindings.lookup other := by
  induction bindings with
  | nil => simp
  | cons first rest ih =>
      obtain ⟨n, old⟩ := first
      rw [lookup_cons_eq]
      by_cases hsame : n = name
      · rw [List.filter_cons_of_neg (by simpa using hsame), ih, hsame]
        split_ifs <;> rfl
      · rw [List.filter_cons_of_pos (by simpa using hsame), lookup_cons_eq, ih]
        split_ifs with h h'
        · exact absurd (h.symm.trans h') hsame
        · rfl
        · rfl
        · rfl

/-- In ordered bindings a value is looked up exactly if it is bound. -/
theorem Ordered.lookup_eq_some_iff (h : Ordered bindings) :
    bindings.lookup name = some value ↔ (name, value) ∈ bindings := by
  induction bindings with
  | nil => simp
  | cons first rest ih =>
      obtain ⟨n, old⟩ := first
      obtain ⟨hfirst, hrest⟩ := List.pairwise_cons.mp h
      rw [lookup_cons_eq, List.mem_cons, Prod.mk.injEq]
      by_cases hsame : name = n
      · rw [if_pos hsame, Option.some.injEq]
        have hnew : (name, value) ∉ rest := fun hmem =>
          absurd (hfirst (name, value) hmem) (by simp [hsame])
        constructor
        · intro hvalue
          exact Or.inl ⟨hsame, hvalue.symm⟩
        · rintro (⟨-, hvalue⟩ | hmem)
          · exact hvalue.symm
          · exact absurd hmem hnew
      · rw [if_neg hsame, ih hrest]
        simp [hsame]

namespace Represents

variable {v : Variables} {map : Text → Option Text}

theorem empty : Variables.empty.Represents fun _ => none :=
  ⟨List.Pairwise.nil, fun _ => rfl⟩

theorem set (h : v.Represents map) (name value : Text) :
    (v.set name value).Represents (Function.update map name (some value)) := by
  refine ⟨h.ordered.insert, fun other => ?_⟩
  rw [get?, Variables.set, lookup_insert, Function.update_apply, ← h.get?_eq other]
  rfl

theorem unset (h : v.Represents map) (name : Text) :
    (v.unset name).Represents (Function.update map name none) := by
  refine ⟨h.ordered.filter _, fun other => ?_⟩
  rw [get?, Variables.unset, lookup_filter_ne, Function.update_apply, ← h.get?_eq other]
  rfl

theorem mem_bindings_iff (h : v.Represents map) {name value : Text} :
    (name, value) ∈ v.bindings ↔ map name = some value := by
  rw [← h.get?_eq, get?, h.ordered.lookup_eq_some_iff]

theorem mem_names_iff (h : v.Represents map) {name : Text} :
    name ∈ v.names ↔ ∃ value, map name = some value := by
  rw [names, List.mem_map]
  constructor
  · rintro ⟨⟨n, value⟩, hmem, rfl⟩
    exact ⟨value, h.mem_bindings_iff.mp hmem⟩
  · rintro ⟨value, hvalue⟩
    exact ⟨(name, value), h.mem_bindings_iff.mpr hvalue, rfl⟩

end Represents

end Variables

end AliasConsole
