import AliasConsole.Config.Basic
import Mathlib.Data.List.Nodup
import Mathlib.Tactic.SplitIfs

/-!
# Steps that may fail and entries under keys

Documents and settings are read in steps that may fail, and they are lists of entries
in which a value is put at the place of its key or at the end.  Both kinds of putting
are one: it changes what is found under its key and nothing else, and it never makes a
key stand twice.
-/

namespace AliasConsole

section Steps

variable {ε α β : Type} {x : Except ε α} {f : α → Except ε β}

theorem exists_of_bind_eq_ok {b : β} (h : x >>= f = .ok b) : ∃ a, x = .ok a ∧ f a = .ok b := by
  cases x with
  | ok a => exact ⟨a, rfl, h⟩
  | error e => cases h

/-- The error of a computation that fails. -/
def errorOf? : Except ε α → Option ε
  | .ok _ => none
  | .error e => some e

theorem errorOf?_eq_some_iff {e : ε} : errorOf? x = some e ↔ x = .error e := by
  cases x with
  | ok a => exact iff_of_false nofun nofun
  | error own =>
      rw [errorOf?, Option.some.injEq]
      exact ⟨congrArg _, Except.error.inj⟩

end Steps

/-! ## Entries -/

variable {α β : Type} {entries : List (α × β)} {a a' : α} {b : β}

section Lookup

variable [BEq α] [LawfulBEq α]

theorem lookup_cons_of_eq (h : a = a') (b : β) (rest : List (α × β)) :
    ((a', b) :: rest).lookup a = some b := by
  rw [List.lookup_cons, beq_iff_eq.mpr h]

theorem lookup_cons_of_ne (h : a ≠ a') (b : β) (rest : List (α × β)) :
    ((a', b) :: rest).lookup a = rest.lookup a := by
  rw [List.lookup_cons, beq_eq_false_iff_ne.mpr h]

theorem mem_of_lookup (h : entries.lookup a = some b) : (a, b) ∈ entries := by
  obtain ⟨before, after, rfl, -⟩ := List.lookup_eq_some_iff.mp h
  exact List.mem_append_right before List.mem_cons_self

theorem lookup_eq_none_iff_notMem : entries.lookup a = none ↔ a ∉ entries.map (·.1) := by
  rw [List.lookup_eq_none_iff, List.mem_map]
  constructor
  · rintro h ⟨e, he, rfl⟩
    simpa using h e he
  · intro h e he
    rw [bne_iff_ne]
    rintro rfl
    exact h ⟨e, he, rfl⟩

theorem lookup_of_mem (hkeys : (entries.map (·.1)).Nodup) (h : (a, b) ∈ entries) :
    entries.lookup a = some b := by
  obtain ⟨before, after, rfl⟩ := List.append_of_mem h
  rw [List.map_append, List.nodup_append] at hkeys
  rw [List.lookup_eq_some_iff]
  refine ⟨before, after, rfl, fun e he => ?_⟩
  rw [bne_iff_ne]
  rintro rfl
  exact hkeys.2.2 _ (List.mem_map_of_mem he) _ List.mem_cons_self rfl

end Lookup

/-! ## Putting values -/

section Putting

variable [DecidableEq α]

/-- Puts a value under a key, at the place of the key or at the end. -/
def putAt (a : α) (b : β) : List (α × β) → List (α × β)
  | [] => [(a, b)]
  | (k, old) :: rest => if k = a then (a, b) :: rest else (k, old) :: putAt a b rest

theorem Toml.Table.put_eq (k : Text) (v : Value) (t : Toml.Table) :
    Toml.Table.put k v t = putAt k v t := by
  induction t with
  | nil => rfl
  | cons head rest ih => rw [Toml.Table.put, putAt, ih]

theorem Config.Settings.put_eq (f : Config.Field) (v : Value) (settings : Config.Settings) :
    Config.Settings.put f v settings = putAt f v settings := by
  induction settings with
  | nil => rfl
  | cons head rest ih => rw [Config.Settings.put, putAt, ih]

theorem eq_or_mem_of_mem_putAt {e : α × β} (h : e ∈ putAt a b entries) :
    e = (a, b) ∨ e ∈ entries := by
  induction entries with
  | nil => exact Or.inl (List.mem_singleton.mp h)
  | cons head rest ih =>
      rw [putAt] at h
      split_ifs at h
      · rcases List.mem_cons.mp h with rfl | hrest
        · exact Or.inl rfl
        · exact Or.inr (List.mem_cons_of_mem head hrest)
      · rcases List.mem_cons.mp h with rfl | hrest
        · exact Or.inr List.mem_cons_self
        · exact (ih hrest).imp_right (List.mem_cons_of_mem head)

/-- A key keeps its place, and a new key is the last one. -/
theorem keys_putAt (a : α) (b : β) (entries : List (α × β)) :
    (putAt a b entries).map (·.1) =
      if a ∈ entries.map (·.1) then entries.map (·.1) else entries.map (·.1) ++ [a] := by
  induction entries with
  | nil => rfl
  | cons head rest ih =>
      rw [putAt]
      by_cases hhead : head.1 = a
      · simp [hhead]
      · simp only [hhead, if_false, List.map_cons, ih, List.mem_cons, Ne.symm hhead, false_or]
        split_ifs <;> rfl

theorem nodup_keys_putAt (h : (entries.map (·.1)).Nodup) (a : α) (b : β) :
    ((putAt a b entries).map (·.1)).Nodup := by
  rw [keys_putAt]
  split_ifs with hmem
  · exact h
  · exact h.append (List.nodup_singleton a) (by simpa using hmem)

theorem putAt_of_notMem (h : a ∉ entries.map (·.1)) (b : β) :
    putAt a b entries = entries ++ [(a, b)] := by
  induction entries with
  | nil => rfl
  | cons head rest ih =>
      rw [List.map_cons, List.mem_cons, not_or] at h
      rw [putAt, if_neg (Ne.symm h.1), ih h.2, List.cons_append]

variable [BEq α] [LawfulBEq α]

theorem lookup_putAt_self (a : α) (b : β) (entries : List (α × β)) :
    (putAt a b entries).lookup a = some b := by
  induction entries with
  | nil => exact lookup_cons_of_eq rfl b []
  | cons head rest ih =>
      rw [putAt]
      split_ifs with hhead
      · exact lookup_cons_of_eq rfl b rest
      · rw [lookup_cons_of_ne (Ne.symm hhead), ih]

theorem lookup_putAt_of_ne (h : a' ≠ a) (b : β) (entries : List (α × β)) :
    (putAt a b entries).lookup a' = entries.lookup a' := by
  induction entries with
  | nil => exact lookup_cons_of_ne h b []
  | cons head rest ih =>
      rw [putAt]
      split_ifs with hhead
      · rw [lookup_cons_of_ne h, lookup_cons_of_ne (by rwa [hhead])]
      · rw [List.lookup_cons, List.lookup_cons, ih]

end Putting

/-! ## Putting many values -/

section PuttingMany

variable [DecidableEq α]

/-- Puts the values of all entries under their keys, one after the other. -/
def putAll (found entries : List (α × β)) : List (α × β) :=
  entries.foldl (fun found e => putAt e.1 e.2 found) found

variable (found : List (α × β))

theorem putAll_cons (e : α × β) (rest : List (α × β)) :
    putAll found (e :: rest) = putAll (putAt e.1 e.2 found) rest :=
  rfl

theorem putAll_append (entries more : List (α × β)) :
    putAll found (entries ++ more) = putAll (putAll found entries) more :=
  List.foldl_append

/-- The last value that is put under a key stays. -/
theorem lookup_putAll [BEq α] [LawfulBEq α] (entries : List (α × β)) (a : α) :
    (putAll found entries).lookup a = (entries.reverse.lookup a).or (found.lookup a) := by
  induction entries generalizing found with
  | nil => rfl
  | cons e rest ih =>
      rw [putAll_cons, ih, List.reverse_cons, List.lookup_append, Option.or_assoc]
      congr 1
      by_cases ha : a = e.1
      · rw [ha, lookup_putAt_self, lookup_cons_of_eq rfl]
        rfl
      · rw [lookup_putAt_of_ne ha, lookup_cons_of_ne ha]
        rfl

variable {found}

theorem nodup_keys_putAll (hfound : (found.map (·.1)).Nodup) (entries : List (α × β)) :
    ((putAll found entries).map (·.1)).Nodup := by
  induction entries generalizing found with
  | nil => exact hfound
  | cons e rest ih => exact ih (nodup_keys_putAt hfound e.1 e.2)

/-- Values under keys that are all different are put at the end. -/
theorem putAll_of_nodup (h : ((found ++ entries).map (·.1)).Nodup) :
    putAll found entries = found ++ entries := by
  induction entries generalizing found with
  | nil => exact (List.append_nil found).symm
  | cons e rest ih =>
      have hnew : e.1 ∉ found.map (·.1) := by
        rw [List.map_append, List.map_cons] at h
        intro hmem
        exact (List.nodup_append.mp h).2.2 _ hmem _ List.mem_cons_self rfl
      rw [List.append_cons] at h ⊢
      rw [putAll_cons, putAt_of_notMem hnew, ih h]

end PuttingMany

end AliasConsole
