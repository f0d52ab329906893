import AliasConsole.Value
import Mathlib.Data.Nat.Notation
import Mathlib.Tactic.Common

/-!
# What can be written

A value can be written exactly if its values do not lie too deep inside each
other and no integer in it has too many digits.  There are two faults of writing,
one for each of these limits.
-/

namespace AliasConsole.Value

mutual

/-- How many values lie inside each other, the value itself counted. -/
def depth : Value → ℕ
  | list items => itemsDepth items + 1
  | table entries => entriesDepth entries + 1
  | _ => 1

def itemsDepth : List Value → ℕ
  | [] => 0
  | v :: rest => max (depth v) (itemsDepth rest)

def entriesDepth : List (Text × Value) → ℕ
  | [] => 0
  | (_, v) :: rest => max (depth v) (entriesDepth rest)

end

/-- The integer is the value or lies somewhere inside it. -/
inductive HasInteger (n : Int) : Value → Prop
  | here : HasInteger n (.int n)
  | item {items : List Value} {v : Value} (hv : v ∈ items) (h : HasInteger n v) :
      HasInteger n (.list items)
  | entry {entries : List (Text × Value)} {key : Text} {v : Value} (hv : (key, v) ∈ entries)
      (h : HasInteger n v) : HasInteger n (.table entries)

/-- No integer in the value has too many digits. -/
def HasShortIntegers (v : Value) : Prop := ∀ n, v.HasInteger n → isTooLong n = false

theorem hasShortIntegers_int_iff {n : Int} :
    (int n).HasShortIntegers ↔ isTooLong n = false := by
  constructor
  · intro h
    exact h n .here
  · rintro h m ⟨⟩
    exact h

theorem hasShortIntegers_list_iff {items : List Value} :
    (list items).HasShortIntegers ↔ ∀ v ∈ items, v.HasShortIntegers := by
  constructor
  · intro h v hv n hn
    exact h n (.item hv hn)
  · rintro h n ⟨⟩
    rename_i v hn hv
    exact h v hv n hn

theorem hasShortIntegers_table_iff {entries : List (Text × Value)} :
    (table entries).HasShortIntegers ↔ ∀ e ∈ entries, e.2.HasShortIntegers := by
  constructor
  · rintro h ⟨key, v⟩ hv n hn
    exact h n (.entry hv hn)
  · rintro h n ⟨⟩
    rename_i key v hn hv
    exact h (key, v) hv n hn

mutual

/-- There are two reasons not to write a value. -/
theorem obstacle?_cases {fault : Fault} :
    ∀ {v : Value} {room : ℕ}, v.obstacle? room = some fault →
      fault = .nestedTooDeep ∨ fault = .integerTooLong Decimal.maxIntegerDigits
  | v, 0, h => by
      rw [obstacle?] at h
      exact Or.inl (Option.some.inj h).symm
  | int n, room + 1, h => by
      rw [obstacle?] at h
      split_ifs at h
      exact Or.inr (Option.some.inj h).symm
  | list items, room + 1, h => by
      rw [obstacle?] at h
      exact itemsObstacle?_cases h
  | table entries, room + 1, h => by
      rw [obstacle?] at h
      exact entriesObstacle?_cases h
  | null, room + 1, h | bool _, room + 1, h | float _, room + 1, h | text _, room + 1, h
  | date _, room + 1, h | time _, room + 1, h | moment _ _ _, room + 1, h
  | foreign _, room + 1, h => by cases h

theorem itemsObstacle?_cases {fault : Fault} :
    ∀ {items : List Value} {room : ℕ}, itemsObstacle? items room = some fault →
      fault = .nestedTooDeep ∨ fault = .integerTooLong Decimal.maxIntegerDigits
  | [], room, h => by cases h
  | v :: rest, room, h => by
      rw [itemsObstacle?, Option.or_eq_some_iff] at h
      rcases h with h | ⟨-, h⟩
      · exact obstacle?_cases h
      · exact itemsObstacle?_cases h

theorem entriesObstacle?_cases {fault : Fault} :
    ∀ {entries : List (Text × Value)} {room : ℕ}, entriesObstacle? entries room = some fault →
      fault = .nestedTooDeep ∨ fault = .integerTooLong Decimal.maxIntegerDigits
  | [], room, h => by cases h
  | (_, v) :: rest, room, h => by
      rw [entriesObstacle?, Option.or_eq_some_iff] at h
      rcases h with h | ⟨-, h⟩
      · exact obstacle?_cases h
      · exact entriesObstacle?_cases h

end

mutual

theorem obstacle?_eq_none :
    ∀ {v : Value} {room : ℕ}, v.depth ≤ room → v.HasShortIntegers → v.obstacle? room = none
  | v, 0, hdepth, _ => by
      have hpos : 0 < v.depth := by cases v <;> simp [depth]
      omega
  | int n, room + 1, _, hshort => by
      rw [obstacle?, hasShortIntegers_int_iff.mp hshort]
      rfl
  | list items, room + 1, hdepth, hshort => by
      rw [depth] at hdepth
      rw [obstacle?]
      exact itemsObstacle?_eq_none (by omega) (hasShortIntegers_list_iff.mp hshort)
  | table entries, room + 1, hdepth, hshort => by
      rw [depth] at hdepth
      rw [obstacle?]
      exact entriesObstacle?_eq_none (by omega) (hasShortIntegers_table_iff.mp hshort)
  | null, room + 1, _, _ | bool _, room + 1, _, _ | float _, room + 1, _, _
  | text _, room + 1, _, _ | date _, room + 1, _, _ | time _, room + 1, _, _
  | moment _ _ _, room + 1, _, _ | foreign _, room + 1, _, _ => rfl

theorem itemsObstacle?_eq_none :
    ∀ {items : List Value} {room : ℕ}, itemsDepth items ≤ room →
      (∀ v ∈ items, v.HasShortIntegers) → itemsObstacle? items room = none
  | [], _, _, _ => rfl
  | v :: rest, room, hdepth, hshort => by
      obtain ⟨hv, hrest⟩ := List.forall_mem_cons.mp hshort
      rw [itemsDepth, Nat.max_le] at hdepth
      rw [itemsObstacle?, obstacle?_eq_none hdepth.1 hv, itemsObstacle?_eq_none hdepth.2 hrest]
      rfl

theorem entriesObstacle?_eq_none :
    ∀ {entries : List (Text × Value)} {room : ℕ}, entriesDepth entries ≤ room →
      (∀ e ∈ entries, e.2.HasShortIntegers) → entriesObstacle? entries room = none
  | [], _, _, _ => rfl
  | (_, v) :: rest, room, hdepth, hshort => by
      obtain ⟨hv, hrest⟩ := List.forall_mem_cons.mp hshort
      rw [entriesDepth, Nat.max_le] at hdepth
      rw [entriesObstacle?, obstacle?_eq_none hdepth.1 hv,
        entriesObstacle?_eq_none hdepth.2 hrest]
      rfl

end

/-- A value within the limits of writing, with `room` for values inside each other
below it. -/
structure IsWritable (room : ℕ) (v : Value) : Prop where
  depth_le : v.depth ≤ room + 1
  hasShortIntegers : v.HasShortIntegers

variable {room : ℕ}

theorem IsWritable.spell {v : Value} (h : v.IsWritable room) : v.spell room = .ok v.plain := by
  rw [Value.spell, obstacle?_eq_none h.depth_le h.hasShortIntegers]

theorem IsWritable.write {v : Value} (h : v.IsWritable room) : v.write room = .ok v.written := by
  rw [Value.write, obstacle?_eq_none h.depth_le h.hasShortIntegers]

theorem hasShortIntegers_text (t : Text) : (text t).HasShortIntegers := by
  rintro n ⟨⟩

theorem isWritable_text (t : Text) : (text t).IsWritable room :=
  ⟨by simp [depth], hasShortIntegers_text t⟩

theorem isWritable_int {n : Int} (h : isTooLong n = false) : (int n).IsWritable room :=
  ⟨by simp [depth], hasShortIntegers_int_iff.mpr h⟩

theorem spell_text (t : Text) : (text t).spell room = .ok t :=
  (isWritable_text t).spell

/-- An integer is spelled by its digits unless they are too many. -/
theorem spell_int_eq_ok_iff {n : Int} {t : Text} :
    (int n).spell room = .ok t ↔
      (Text.ofNat n.natAbs).length ≤ Decimal.maxIntegerDigits ∧ t = Text.ofInt n := by
  have hlong : isTooLong n = false ↔
      (Text.ofNat n.natAbs).length ≤ Decimal.maxIntegerDigits := by
    rw [isTooLong, decide_eq_false_iff_not, Nat.not_lt]
  rw [← hlong]
  constructor
  · intro h
    rw [Value.spell] at h
    split at h
    · cases h
    · rename_i hnone
      rw [obstacle?] at hnone
      split_ifs at hnone with hshort
      exact ⟨eq_false_of_ne_true hshort, (Except.ok.inj h).symm⟩
  · rintro ⟨hshort, rfl⟩
    exact (isWritable_int hshort).spell

theorem write_eq_error_iff {v : Value} {fault : Fault} :
    v.write room = .error fault ↔ v.obstacle? (room + 1) = some fault := by
  rw [Value.write]
  cases v.obstacle? (room + 1) <;> simp

end AliasConsole.Value
