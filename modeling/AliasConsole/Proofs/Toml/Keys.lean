import AliasConsole.Proofs.Support

/-!
# Keys of the tables that are read

No table of a document has a key twice.  A value is put at the place of its key or
at the end, an entry is added only under a new key, and every header, entry and
inline table is made of these two changes.  A key of a document therefore stands for
one value.
-/

namespace AliasConsole.Toml

/-- No table in the value has a key twice. -/
inductive IsKeyed : Value → Prop
  | list {items : List Value} (hitems : ∀ v ∈ items, IsKeyed v) : IsKeyed (.list items)
  | table {entries : Table} (hkeys : (entries.map (·.1)).Nodup)
      (hentries : ∀ e ∈ entries, IsKeyed e.2) : IsKeyed (.table entries)
  | plain {v : Value} (hplain : isClosed v = false) : IsKeyed v

theorem isKeyed_list_iff {items : List Value} :
    IsKeyed (.list items) ↔ ∀ v ∈ items, IsKeyed v := by
  constructor
  · intro h
    cases h with
    | list hitems => exact hitems
    | plain hplain => cases hplain
  · exact .list

theorem isKeyed_table_iff {entries : Table} :
    IsKeyed (.table entries) ↔ (entries.map (·.1)).Nodup ∧ ∀ e ∈ entries, IsKeyed e.2 := by
  constructor
  · intro h
    cases h with
    | table hkeys hentries => exact ⟨hkeys, hentries⟩
    | plain hplain => cases hplain
  · rintro ⟨hkeys, hentries⟩
    exact .table hkeys hentries

theorem isKeyed_nil : IsKeyed (.table []) :=
  .table List.nodup_nil (List.forall_mem_nil _)

/-! ## Changes of tables -/

section Changes

variable {t t' : Table} {k : Text} {v : Value}

theorem IsKeyed.put (ht : IsKeyed (.table t)) (hv : IsKeyed v) (k : Text) :
    IsKeyed (.table (Table.put k v t)) := by
  obtain ⟨hkeys, hentries⟩ := isKeyed_table_iff.mp ht
  rw [Table.put_eq]
  refine .table (nodup_keys_putAt hkeys k v) fun e he => ?_
  rcases eq_or_mem_of_mem_putAt he with rfl | he
  · exact hv
  · exact hentries e he

theorem IsKeyed.append (ht : IsKeyed (.table t)) (hv : IsKeyed v) (hnew : t.lookup k = none) :
    IsKeyed (.table (t ++ [(k, v)])) := by
  obtain ⟨hkeys, hentries⟩ := isKeyed_table_iff.mp ht
  refine .table ?_ (List.forall_mem_append.mpr ⟨hentries, List.forall_mem_singleton.mpr hv⟩)
  rw [List.map_append]
  exact hkeys.append (List.nodup_singleton k) (by simpa using lookup_eq_none_iff_notMem.mp hnew)

theorem IsKeyed.of_lookup (ht : IsKeyed (.table t)) (h : t.lookup k = some v) : IsKeyed v :=
  (isKeyed_table_iff.mp ht).2 (k, v) (mem_of_lookup h)

theorem eq_of_lastTable? {items before : List Value} {inner : Table}
    (h : lastTable? items = some (before, inner)) : items = before ++ [.table inner] := by
  rw [lastTable?] at h
  split at h
  · rename_i last hlast
    obtain ⟨rfl, rfl⟩ := Prod.mk.inj (Option.some.inj h)
    obtain ⟨front, rfl⟩ := List.getLast?_eq_some_iff.mp hlast
    rw [List.dropLast_concat]
  · cases h

/-- A change of keyed tables into keyed tables does no harm under any path. -/
theorem IsKeyed.changeAt {change : Table → Option Table}
    (hchange : ∀ t t', IsKeyed (.table t) → change t = some t' → IsKeyed (.table t'))
    {throughLists : Bool} {path : List Text} (ht : IsKeyed (.table t))
    (h : Toml.changeAt throughLists change path t = some t') : IsKeyed (.table t') := by
  induction path generalizing t t' with
  | nil => exact hchange t t' ht h
  | cons k path ih =>
      rw [Toml.changeAt] at h
      split at h
      · rename_i hnew
        obtain ⟨inner, hinner, rfl⟩ := Option.map_eq_some_iff.mp h
        exact ht.append (ih isKeyed_nil hinner) hnew
      · rename_i old hold
        obtain ⟨inner, hinner, rfl⟩ := Option.map_eq_some_iff.mp h
        exact ht.put (ih (ht.of_lookup hold) hinner) k
      · rename_i items hold
        split at h
        · rename_i before last hlast
          obtain ⟨inner, hinner, rfl⟩ := Option.map_eq_some_iff.mp h
          have hitems := isKeyed_list_iff.mp (ht.of_lookup hold)
          rw [eq_of_lastTable? hlast] at hitems
          obtain ⟨hbefore, hlast⟩ := List.forall_mem_append.mp hitems
          have hchanged := ih (List.forall_mem_singleton.mp hlast) hinner
          refine ht.put (.list ?_) k
          exact List.forall_mem_append.mpr ⟨hbefore, List.forall_mem_singleton.mpr hchanged⟩
        · cases h
      · cases h

theorem IsKeyed.addEntry (ht : IsKeyed (.table t)) (hv : IsKeyed v)
    (h : Toml.addEntry k v t = some t') : IsKeyed (.table t') := by
  rw [Toml.addEntry] at h
  split at h
  · cases h
  · rename_i hnew
    rw [← Option.some.inj h]
    exact ht.append hv hnew

theorem IsKeyed.addInline {frozen : List (List Text)} {path : List Text}
    (ht : IsKeyed (.table t)) (hv : IsKeyed v) (h : Toml.addInline frozen path v t = .ok t') :
    IsKeyed (.table t') := by
  rw [Toml.addInline] at h
  dsimp only at h
  split_ifs at h
  split at h
  · rename_i changed hchanged
    rw [← Except.ok.inj h]
    exact ht.changeAt (fun _ _ ht h => ht.addEntry hv h) hchanged
  · cases h

end Changes

/-! ## Values -/

section Numbers

variable {t rest : Text} {v : Value}

theorem isClosed_afterDate (d : Date) (t : Text) : isClosed (afterDate d t).1 = false := by
  fun_cases afterDate d t <;> rfl

theorem isClosed_decimalValue {negative : Bool} {whole : Text}
    (h : decimalValue negative whole t = .ok (v, rest)) : isClosed v = false := by
  rw [decimalValue] at h
  dsimp only at h
  split at h
  · split at h
    · cases h
    · obtain ⟨rfl, -⟩ := Prod.mk.inj (Except.ok.inj h)
      rfl
  · obtain ⟨rfl, -⟩ := Prod.mk.inj (Except.ok.inj h)
    rfl

theorem isClosed_decimal? {scan : Except Refusal (Value × Text)} (hscan : decimal? t = some scan)
    (h : scan = .ok (v, rest)) : isClosed v = false := by
  subst h
  rw [decimal?] at hscan
  dsimp only at hscan
  split at hscan
  · exact isClosed_decimalValue (Option.some.inj hscan)
  · obtain ⟨found, -, hvalue⟩ := Option.map_eq_some_iff.mp hscan
    exact isClosed_decimalValue hvalue

theorem isClosed_special? (h : special? t = some (v, rest)) : isClosed v = false := by
  rw [special?] at h
  dsimp only at h
  split at h
  · obtain ⟨rfl, -⟩ := Prod.mk.inj (Option.some.inj h)
    rfl
  · obtain ⟨rfl, -⟩ := Prod.mk.inj (Option.some.inj h)
    rfl
  · cases h

theorem isClosed_marked? (h : marked? t = some (v, rest)) : isClosed v = false := by
  have hbased : ∀ base ok body, based? base ok body = some (v, rest) → isClosed v = false := by
    intro base ok body h
    obtain ⟨found, -, hvalue⟩ := Option.map_eq_some_iff.mp h
    obtain ⟨rfl, -⟩ := Prod.mk.inj hvalue
    rfl
  rw [marked?.eq_def] at h
  split at h
  · exact hbased _ _ _ h
  · exact hbased _ _ _ h
  · exact hbased _ _ _ h
  · cases h

/-- What is read as a number, a date or a time is no list and no table. -/
theorem isClosed_number (h : number t = .ok (v, rest)) : isClosed v = false := by
  rw [number] at h
  split at h
  · rename_i scan hmoment
    rw [moment?] at hmoment
    split at hmoment
    · cases hmoment
    · rename_i d after hdate
      obtain rfl := Option.some.inj hmoment
      split_ifs at h
      have hclosed := isClosed_afterDate d after
      rwa [Except.ok.inj h] at hclosed
  · split at h
    · obtain ⟨rfl, -⟩ := Prod.mk.inj (Except.ok.inj h)
      rfl
    · split at h
      · rename_i found hmarked
        rw [Except.ok.inj h] at hmarked
        exact isClosed_marked? hmarked
      · rw [plainNumber] at h
        split at h
        · rename_i scan hdecimal
          exact isClosed_decimal? hdecimal h
        · split at h
          · rename_i found hspecial
            rw [Except.ok.inj h] at hspecial
            exact isClosed_special? hspecial
          · cases h

end Numbers

/-- What is read with this fuel is keyed: every value, the items of a list, the value of
an entry, and the table that an inline table makes of a keyed one. -/
structure ReadsKeyed (fuel : ℕ) : Prop where
  value : ∀ {room t v rest}, Toml.value room fuel t = .ok (v, rest) → IsKeyed v
  items : ∀ {room t items rest}, arrayItems room fuel t = .ok (items, rest) →
    ∀ v ∈ items, IsKeyed v
  entry : ∀ {room t path v rest}, Toml.entry room fuel t = .ok ((path, v), rest) → IsKeyed v
  inline : ∀ {room frozen before t table rest}, IsKeyed (.table before) →
    inlineEntries room fuel frozen before t = .ok (table, rest) → IsKeyed (.table table)

namespace ReadsKeyed

variable {fuel : ℕ} {room : Room} {t rest : Text} (h : ReadsKeyed fuel)

include h

theorem value_succ {v : Value} (hread : Toml.value room (fuel + 1) t = .ok (v, rest)) :
    IsKeyed v := by
  rw [Toml.value.eq_def] at hread
  dsimp only at hread
  split at hread
  · obtain ⟨found, -, hread⟩ := exists_of_bind_eq_ok hread
    obtain ⟨rfl, -⟩ := Prod.mk.inj (Except.ok.inj hread)
    exact .plain rfl
  · split at hread
    · obtain ⟨rfl, -⟩ := Prod.mk.inj (Except.ok.inj hread)
      exact .plain rfl
    · obtain ⟨rfl, -⟩ := Prod.mk.inj (Except.ok.inj hread)
      exact .plain rfl
    · split at hread
      · split_ifs at hread
        obtain ⟨start, -, hread⟩ := exists_of_bind_eq_ok hread
        obtain ⟨⟨items, after⟩, hitems, hread⟩ := exists_of_bind_eq_ok hread
        obtain ⟨rfl, -⟩ := Prod.mk.inj (Except.ok.inj hread)
        exact .list (h.items hitems)
      · split_ifs at hread
        · obtain ⟨⟨entries, after⟩, hentries, hread⟩ := exists_of_bind_eq_ok hread
          obtain ⟨rfl, -⟩ := Prod.mk.inj (Except.ok.inj hread)
          exact h.inline isKeyed_nil hentries
        · exact .plain (isClosed_number hread)
      · cases hread

theorem items_succ {items : List Value}
    (hread : arrayItems room (fuel + 1) t = .ok (items, rest)) : ∀ v ∈ items, IsKeyed v := by
  rw [arrayItems.eq_def] at hread
  dsimp only at hread
  split at hread
  · obtain ⟨rfl, -⟩ := Prod.mk.inj (Except.ok.inj hread)
    exact List.forall_mem_nil _
  · obtain ⟨⟨item, after⟩, hitem, hread⟩ := exists_of_bind_eq_ok hread
    obtain ⟨start, -, hread⟩ := exists_of_bind_eq_ok hread
    split at hread
    · obtain ⟨rfl, -⟩ := Prod.mk.inj (Except.ok.inj hread)
      exact List.forall_mem_singleton.mpr (h.value hitem)
    · obtain ⟨start, -, hread⟩ := exists_of_bind_eq_ok hread
      obtain ⟨⟨more, after⟩, hmore, hread⟩ := exists_of_bind_eq_ok hread
      obtain ⟨rfl, -⟩ := Prod.mk.inj (Except.ok.inj hread)
      exact List.forall_mem_cons.mpr ⟨h.value hitem, h.items hmore⟩
    · cases hread

theorem entry_succ {path : List Text} {v : Value}
    (hread : Toml.entry room (fuel + 1) t = .ok ((path, v), rest)) : IsKeyed v := by
  rw [Toml.entry] at hread
  obtain ⟨⟨parts, after⟩, -, hread⟩ := exists_of_bind_eq_ok hread
  dsimp only at hread
  split at hread
  · obtain ⟨⟨own, after⟩, hown, hread⟩ := exists_of_bind_eq_ok hread
    obtain ⟨hpair, -⟩ := Prod.mk.inj (Except.ok.inj hread)
    obtain ⟨-, rfl⟩ := Prod.mk.inj hpair
    exact h.value hown
  · cases hread

theorem inline_succ {frozen : List (List Text)} {before table : Table}
    (hbefore : IsKeyed (.table before))
    (hread : inlineEntries room (fuel + 1) frozen before t = .ok (table, rest)) :
    IsKeyed (.table table) := by
  rw [inlineEntries.eq_def] at hread
  dsimp only at hread
  split at hread
  · cases hread
  · obtain ⟨rfl, -⟩ := Prod.mk.inj (Except.ok.inj hread)
    exact hbefore
  · obtain ⟨⟨⟨path, v⟩, after⟩, hentry, hread⟩ := exists_of_bind_eq_ok hread
    obtain ⟨more, hmore, hread⟩ := exists_of_bind_eq_ok hread
    have hkeyed := hbefore.addInline (h.entry hentry) hmore
    dsimp only at hread
    split at hread
    · exact h.inline hkeyed hread
    · split_ifs at hread
      obtain ⟨rfl, -⟩ := Prod.mk.inj (Except.ok.inj hread)
      exact hkeyed
    · cases hread

end ReadsKeyed

theorem readsKeyed (fuel : ℕ) : ReadsKeyed fuel := by
  induction fuel with
  | zero => constructor <;> simp [value, arrayItems, entry, inlineEntries]
  | succ fuel ih => exact ⟨ih.value_succ, ih.items_succ, ih.entry_succ, ih.inline_succ⟩

/-! ## Documents -/

namespace Draft

variable {room : Room} {d d' : Draft} {path : List Text} {t rest : Text}

theorem isKeyed_openTable (hd : IsKeyed (.table d.table)) (h : d.openTable path = .ok d') :
    IsKeyed (.table d'.table) := by
  rw [openTable] at h
  split_ifs at h
  split at h
  · rename_i table htable
    rw [← Except.ok.inj h]
    refine hd.changeAt ?_ htable
    intro t t' ht hsome
    rwa [← Option.some.inj hsome]
  · cases h

theorem isKeyed_appendTable {key : Text} {table table' : Table} (htable : IsKeyed (.table table))
    (h : appendTable key table = some table') : IsKeyed (.table table') := by
  rw [appendTable] at h
  split at h
  · rename_i hnew
    rw [← Option.some.inj h]
    exact htable.append (.list (List.forall_mem_singleton.mpr isKeyed_nil)) hnew
  · rename_i items hitems
    rw [← Option.some.inj h]
    refine htable.put (.list ?_) key
    have hold := isKeyed_list_iff.mp (htable.of_lookup hitems)
    exact List.forall_mem_append.mpr ⟨hold, List.forall_mem_singleton.mpr isKeyed_nil⟩
  · cases h

theorem isKeyed_openListed (hd : IsKeyed (.table d.table)) (h : d.openListed path = .ok d') :
    IsKeyed (.table d'.table) := by
  rw [openListed] at h
  dsimp only at h
  split_ifs at h
  split at h
  · rename_i table htable
    rw [← Except.ok.inj h]
    exact hd.changeAt (fun _ _ ht happend => isKeyed_appendTable ht happend) htable
  · cases h

theorem isKeyed_add {v : Value} (hd : IsKeyed (.table d.table)) (hv : IsKeyed v)
    (h : d.add path v = .ok d') : IsKeyed (.table d'.table) := by
  rw [add] at h
  dsimp only at h
  split at h
  · cases h
  · split at h
    · rename_i table htable
      rw [← Except.ok.inj h]
      exact hd.changeAt (fun _ _ ht hadd => ht.addEntry hv hadd) htable
    · cases h

theorem isKeyed_readHeader (hd : IsKeyed (.table d.table))
    (h : d.readHeader t = .ok (d', rest)) : IsKeyed (.table d'.table) := by
  rw [readHeader.eq_def] at h
  split at h
  · obtain ⟨⟨path, after⟩, -, h⟩ := exists_of_bind_eq_ok h
    obtain ⟨opened, hopened, h⟩ := exists_of_bind_eq_ok h
    split at h
    · obtain ⟨rfl, -⟩ := Prod.mk.inj (Except.ok.inj h)
      exact isKeyed_openListed (d := d.settle) hd hopened
    · cases h
  · obtain ⟨⟨path, after⟩, -, h⟩ := exists_of_bind_eq_ok h
    obtain ⟨opened, hopened, h⟩ := exists_of_bind_eq_ok h
    split at h
    · obtain ⟨rfl, -⟩ := Prod.mk.inj (Except.ok.inj h)
      exact isKeyed_openTable (d := d.settle) hd hopened
    · cases h

theorem isKeyed_readStatement (hd : IsKeyed (.table d.table))
    (h : d.readStatement room t = .ok (d', rest)) : IsKeyed (.table d'.table) := by
  rw [readStatement.eq_def] at h
  split at h
  · exact isKeyed_readHeader hd h
  · split_ifs at h
    · obtain ⟨⟨⟨path, v⟩, after⟩, hentry, h⟩ := exists_of_bind_eq_ok h
      obtain ⟨added, hadded, h⟩ := exists_of_bind_eq_ok h
      obtain ⟨rfl, -⟩ := Prod.mk.inj (Except.ok.inj h)
      exact isKeyed_add hd ((readsKeyed _).entry hentry) hadded
    · obtain ⟨rfl, -⟩ := Prod.mk.inj (Except.ok.inj h)
      exact hd
  · obtain ⟨rfl, -⟩ := Prod.mk.inj (Except.ok.inj h)
    exact hd

theorem isKeyed_readLines {fuel : ℕ} (hd : IsKeyed (.table d.table))
    (h : readLines room fuel t d = .ok d') : IsKeyed (.table d'.table) := by
  induction fuel generalizing t d with
  | zero =>
      rw [← Except.ok.inj h]
      exact hd
  | succ fuel ih =>
      rw [readLines] at h
      obtain ⟨⟨next, after⟩, hnext, h⟩ := exists_of_bind_eq_ok h
      have hkeyed := isKeyed_readStatement hd hnext
      obtain ⟨line, -, h⟩ := exists_of_bind_eq_ok h
      split at h
      · rw [← Except.ok.inj h]
        exact hkeyed
      · exact ih hkeyed h
      · cases h

end Draft

/-- No table of a document that is read has a key twice. -/
theorem isKeyed_read {room : Room} {t : Text} {document : Table}
    (h : read room t = .ok document) :
    IsKeyed (.table document) := by
  rw [read] at h
  cases hlines : Draft.readLines room ((unifyLineEnds t).length + 1) (unifyLineEnds t) .empty with
  | error refusal =>
      rw [hlines] at h
      cases h
  | ok d =>
      rw [hlines] at h
      rw [← Except.ok.inj h]
      exact Draft.isKeyed_readLines isKeyed_nil hlines

end AliasConsole.Toml
