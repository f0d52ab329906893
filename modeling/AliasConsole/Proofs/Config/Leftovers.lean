import AliasConsole.Proofs.Config.Precedence
import AliasConsole.Proofs.Text.Pieces

/-!
# Entries that belong to no field

What a document holds besides the fields is kept under names: an entry on top under its
own name, an entry of a section under the section and the key joined by a point.  No
place stands twice in a document, but two places can have the same name if the name of
an entry on top has a point itself.  Then the later entry hides the earlier one, and
nothing else is ever lost.
-/

namespace AliasConsole.Config

open Toml

/-- Where an entry of the document stands: on top, or under a key of a section. -/
inductive Place where
  | top (name : Text)
  | within (sectionName key : Text)
deriving DecidableEq

namespace Place

/-- The name under which the entry is kept. -/
def name : Place → Text
  | top name => name
  | within sectionName key => sectionName ++ '.' :: key

/-- The entry on top of the document to which the place belongs. -/
def root : Place → Text
  | top name => name
  | within sectionName _ => sectionName

/-- A name tells the place if the entries on top have no point in their names. -/
theorem eq_of_name {p q : Place} (hp : '.' ∉ p.root) (hq : '.' ∉ q.root)
    (h : p.name = q.name) : p = q := by
  have hpoint : ∀ sectionName key : Text, '.' ∈ sectionName ++ '.' :: key := fun _ _ =>
    List.mem_append_right _ List.mem_cons_self
  cases p with
  | top name =>
      cases q with
      | top other => exact congrArg top h
      | within sectionName key =>
          rw [root] at hp
          rw [Place.name, Place.name] at h
          exact absurd (h ▸ hpoint sectionName key) hp
  | within sectionName key =>
      cases q with
      | top name =>
          rw [root] at hq
          rw [Place.name, Place.name] at h
          exact absurd (h ▸ hpoint sectionName key) hq
      | within other key' =>
          rw [root] at hp hq
          rw [Place.name, Place.name] at h
          have hpieces := congrArg (Text.pieces '.') h
          rw [pieces_append_cons hp, pieces_append_cons hq] at hpieces
          obtain rfl : sectionName = other := (List.cons.inj hpieces).1
          obtain ⟨-, rfl⟩ := List.cons.inj (List.append_cancel_left h)
          rfl

end Place

/-- The document has the value at the place, and the place belongs to no field. -/
inductive IsLeft (document : Table) : Place → Value → Prop
  | top {name : Text} {v : Value} (hmem : (name, v) ∈ document)
      (hplain : ∀ entries, v ≠ .table entries) : IsLeft document (.top name) v
  | within {sectionName key : Text} {entries : Table} {v : Value}
      (hsection : (sectionName, .table entries) ∈ document) (hmem : (key, v) ∈ entries)
      (hfield : ∀ f : Field, f.place ≠ (sectionName, key)) :
      IsLeft document (.within sectionName key) v

/-- What is left of one entry on top of the document. -/
def leftoversOf (entry : Text × Value) : List (Place × Value) :=
  match entry.2 with
  | .table entries =>
      (entries.filter fun e => (Field.at? entry.1 e.1).isNone).map fun e =>
        (.within entry.1 e.1, e.2)
  | v => [(.top entry.1, v)]

/-- What is left of a document, in its order. -/
def leftovers (document : Table) : List (Place × Value) :=
  document.flatMap leftoversOf

/-- The leftovers under their names. -/
def namedLeftovers (document : Table) : List (Text × Value) :=
  (leftovers document).map fun e => (e.1.name, e.2)

variable {document entries : Table} {sectionName : Text} {place : Place} {v : Value}
  {found : Settings × List (Text × Value)}

theorem isNone_at?_iff {key : Text} :
    (Field.at? sectionName key).isNone = true ↔ ∀ f : Field, f.place ≠ (sectionName, key) := by
  rw [Option.isNone_iff_eq_none, Option.eq_none_iff_forall_ne_some]
  exact forall_congr' fun f => not_congr Field.at?_eq_some_iff

theorem leftoversOf_of_plain {entry : Text × Value}
    (hplain : ∀ entries, entry.2 ≠ .table entries) :
    leftoversOf entry = [(.top entry.1, entry.2)] := by
  rw [leftoversOf.eq_def]
  split
  · rename_i entries hentry
    exact absurd hentry (hplain entries)
  · rfl

theorem mem_leftovers_iff : (place, v) ∈ leftovers document ↔ IsLeft document place v := by
  rw [leftovers, List.mem_flatMap]
  constructor
  · rintro ⟨⟨name, w⟩, hentry, hmem⟩
    rw [leftoversOf.eq_def] at hmem
    split at hmem
    · rename_i entries hw
      obtain ⟨e, hfilter, heq⟩ := List.mem_map.mp hmem
      obtain ⟨he, hnone⟩ := List.mem_filter.mp hfilter
      obtain ⟨rfl, rfl⟩ := Prod.mk.inj heq
      dsimp only at hw
      subst hw
      exact .within hentry he (isNone_at?_iff.mp hnone)
    · rename_i hplain
      obtain ⟨rfl, rfl⟩ := Prod.mk.inj (List.mem_singleton.mp hmem)
      exact .top hentry fun entries heq => hplain entries heq
  · intro h
    cases h with
    | @top name v hmem hplain =>
        refine ⟨(name, v), hmem, ?_⟩
        rw [leftoversOf_of_plain hplain]
        exact List.mem_singleton_self _
    | @within sectionName key entries v hsection hmem hfield =>
        refine ⟨_, hsection, List.mem_map.mpr ⟨(key, v), ?_, rfl⟩⟩
        exact List.mem_filter.mpr ⟨hmem, isNone_at?_iff.mpr hfield⟩

theorem root_of_mem_leftoversOf {entry : Text × Value} {e : Place × Value}
    (h : e ∈ leftoversOf entry) : e.1.root = entry.1 := by
  rw [leftoversOf.eq_def] at h
  split at h
  · obtain ⟨e, -, rfl⟩ := List.mem_map.mp h
    rfl
  · rw [List.mem_singleton.mp h]
    rfl

theorem nodup_places_leftoversOf {entry : Text × Value} (h : IsKeyed entry.2) :
    ((leftoversOf entry).map (·.1)).Nodup := by
  rw [leftoversOf.eq_def]
  split
  · rename_i entries hentries
    rw [hentries] at h
    have hkeys := (isKeyed_table_iff.mp h).1
    have hfilter : ((entries.filter fun e => (Field.at? entry.1 e.1).isNone).map (·.1)).Nodup :=
      hkeys.sublist (List.filter_sublist.map _)
    have hinjective : Function.Injective (Place.within entry.1) := fun _ _ heq =>
      (Place.within.inj heq).2
    have hplaces := hfilter.map hinjective
    rw [List.map_map] at hplaces ⊢
    exact hplaces
  · exact List.nodup_singleton _

theorem nodup_places_leftovers (h : IsKeyed (.table document)) :
    ((leftovers document).map (·.1)).Nodup := by
  obtain ⟨hkeys, hentries⟩ := isKeyed_table_iff.mp h
  rw [leftovers, List.map_flatMap, List.nodup_flatMap]
  refine ⟨fun entry hentry => nodup_places_leftoversOf (hentries entry hentry), ?_⟩
  refine (List.pairwise_map.mp hkeys).imp fun {a b} hne place ha hb => ?_
  obtain ⟨x, hx, rfl⟩ := List.mem_map.mp ha
  obtain ⟨y, hy, heq⟩ := List.mem_map.mp hb
  rw [← root_of_mem_leftoversOf hx, ← root_of_mem_leftoversOf hy, heq] at hne
  exact hne rfl

/-! ## What is kept -/

theorem takeEntries_snd (entries : Table) :
    (entries.foldl (takeEntry sectionName) found).2 =
      putAll found.2 ((entries.filter fun e => (Field.at? sectionName e.1).isNone).map fun e =>
        ((Place.within sectionName e.1).name, e.2)) := by
  induction entries generalizing found with
  | nil => rfl
  | cons entry rest ih =>
      rw [List.foldl_cons, ih, takeEntry]
      cases hfield : Field.at? sectionName entry.1 with
      | none =>
          rw [List.filter_cons_of_pos (by rw [hfield]; rfl), List.map_cons, putAll_cons,
            Table.put_eq]
          rfl
      | some f => rw [List.filter_cons_of_neg (by simp [hfield])]

theorem takeSection_snd (entry : Text × Value) :
    (takeSection found entry).2 =
      putAll found.2 ((leftoversOf entry).map fun e => (e.1.name, e.2)) := by
  rw [takeSection.eq_def]
  split
  · rename_i entries hentry
    rw [takeEntries_snd, leftoversOf.eq_def, hentry, List.map_map]
    rfl
  · rename_i hplain
    rw [leftoversOf_of_plain hplain, List.map_singleton, Table.put_eq]
    rfl

theorem namedLeftovers_cons (entry : Text × Value) (rest : Table) :
    namedLeftovers (entry :: rest) =
      ((leftoversOf entry).map fun e => (e.1.name, e.2)) ++ namedLeftovers rest := by
  rw [namedLeftovers, leftovers, List.flatMap_cons, List.map_append]
  rfl

theorem ofDocument_snd (document : Table) :
    (ofDocument document).2 = putAll [] (namedLeftovers document) := by
  have hfold : ∀ found : Settings × List (Text × Value),
      (document.foldl takeSection found).2 = putAll found.2 (namedLeftovers document) := by
    induction document with
    | nil => exact fun _ => rfl
    | cons entry rest ih =>
        intro found
        rw [List.foldl_cons, ih, takeSection_snd, ← putAll_append, namedLeftovers_cons]
  exact hfold ([], [])

theorem nodup_keys_ofDocument (document : Table) : ((ofDocument document).2.map (·.1)).Nodup := by
  have hempty : (([] : List (Text × Value)).map (·.1)).Nodup := List.nodup_nil
  rw [ofDocument_snd]
  exact nodup_keys_putAll hempty _

/-- Under each name the last of the leftovers of that name is kept. -/
theorem lookup_ofDocument (document : Table) (name : Text) :
    (ofDocument document).2.lookup name = (namedLeftovers document).reverse.lookup name := by
  rw [ofDocument_snd, lookup_putAll]
  exact Option.or_none

/-- An entry whose name no other leftover has is kept with its value. -/
theorem lookup_ofDocument_of_unique (hdocument : IsKeyed (.table document))
    (h : IsLeft document place v)
    (hunique : ∀ other w, IsLeft document other w → other.name = place.name → other = place) :
    (ofDocument document).2.lookup place.name = some v := by
  rw [lookup_ofDocument]
  have hmem : (place, v) ∈ leftovers document := mem_leftovers_iff.mpr h
  cases hlast : (namedLeftovers document).reverse.lookup place.name with
  | none =>
      rw [lookup_eq_none_iff_notMem, List.map_reverse, List.mem_reverse, namedLeftovers,
        List.map_map] at hlast
      exact absurd (List.mem_map.mpr ⟨_, hmem, rfl⟩) hlast
  | some w =>
      obtain ⟨⟨other, w'⟩, hother, heq⟩ :=
        List.mem_map.mp (List.mem_reverse.mp (mem_of_lookup hlast))
      obtain ⟨hname, rfl⟩ := Prod.mk.inj heq
      obtain rfl := hunique other w' (mem_leftovers_iff.mp hother) hname
      have hplaces := nodup_places_leftovers hdocument
      exact (lookup_of_mem hplaces hother).symm.trans (lookup_of_mem hplaces hmem)

theorem length_ofDocument (document : Table) :
    (ofDocument document).2.length = ((namedLeftovers document).map (·.1)).dedup.length := by
  have hmem : ∀ name, name ∈ (ofDocument document).2.map (·.1) ↔
      name ∈ ((namedLeftovers document).map (·.1)).dedup := by
    intro name
    rw [List.mem_dedup, ← not_iff_not, ← lookup_eq_none_iff_notMem, lookup_ofDocument,
      lookup_eq_none_iff_notMem, List.map_reverse, List.mem_reverse]
  have hperm := (List.perm_ext_iff_of_nodup (nodup_keys_ofDocument document)
    (List.nodup_dedup _)).mpr hmem
  rw [← hperm.length_eq, List.length_map]

theorem ofDocument_of_nodup (h : ((namedLeftovers document).map (·.1)).Nodup) :
    (ofDocument document).2 = namedLeftovers document := by
  rw [ofDocument_snd]
  exact putAll_of_nodup h

theorem length_ofDocument_eq_iff :
    (ofDocument document).2.length = (leftovers document).length ↔
      ((namedLeftovers document).map (·.1)).Nodup := by
  constructor
  · intro h
    rw [length_ofDocument] at h
    refine List.dedup_eq_self.mp ((List.dedup_sublist _).eq_of_length ?_)
    rw [h, namedLeftovers, List.map_map, List.length_map]
  · intro h
    rw [ofDocument_of_nodup h, namedLeftovers, List.length_map]

/-- Leftovers have different names if no entry on top has a point in its name. -/
theorem nodup_names_of_notMem (h : IsKeyed (.table document))
    (hpoint : ∀ e ∈ document, '.' ∉ e.1) : ((namedLeftovers document).map (·.1)).Nodup := by
  have hroot : ∀ place ∈ (leftovers document).map (·.1), '.' ∉ place.root := by
    intro place hplace
    obtain ⟨e, he, rfl⟩ := List.mem_map.mp hplace
    obtain ⟨entry, hentry, hmem⟩ := List.mem_flatMap.mp he
    rw [root_of_mem_leftoversOf hmem]
    exact hpoint entry hentry
  have hnames : ((namedLeftovers document).map (·.1)) =
      ((leftovers document).map (·.1)).map Place.name := by
    rw [namedLeftovers, List.map_map, List.map_map]
    rfl
  rw [hnames]
  refine (nodup_places_leftovers h).map_on fun p hp q hq => ?_
  exact Place.eq_of_name (hroot p hp) (hroot q hq)

/-- Of the entries of a document that belong to no field, a loaded configuration keeps the
last one of each name with its value, so an entry that shares its name with no other is
never lost.  All are kept exactly if their names are different, as they are if no entry on
top of the document has a point in its name. -/
theorem load_extra {s : Surroundings} {environment : Environment} {source : Option (List Nat)}
    {c : Config} (h : load s environment source = .ok c) :
    ∃ document, readDocument s.reading source = .ok document ∧
      (∀ place v, (place, v) ∈ leftovers document ↔ IsLeft document place v) ∧
      ((leftovers document).map (·.1)).Nodup ∧
      (c.extra.map (·.1)).Nodup ∧
      (∀ name, c.extra.lookup name = (namedLeftovers document).reverse.lookup name) ∧
      (∀ place v, IsLeft document place v →
        (∀ other w, IsLeft document other w → other.name = place.name → other = place) →
          c.extra.lookup place.name = some v) ∧
      c.extra.length = ((namedLeftovers document).map (·.1)).dedup.length ∧
      (c.extra.length = (leftovers document).length ↔
        ((namedLeftovers document).map (·.1)).Nodup) ∧
      ((∀ e ∈ document, '.' ∉ e.1) → c.extra = namedLeftovers document) := by
  obtain ⟨document, hread, -⟩ := exists_of_bind_eq_ok h
  have hkeyed := isKeyed_readDocument hread
  rw [(isMadeOf_of_load hread h).extra]
  exact ⟨document, hread, fun _ _ => mem_leftovers_iff, nodup_places_leftovers hkeyed,
    nodup_keys_ofDocument document, lookup_ofDocument document,
    fun _ _ => lookup_ofDocument_of_unique hkeyed, length_ofDocument document,
    length_ofDocument_eq_iff,
    fun hpoint => ofDocument_of_nodup (nodup_names_of_notMem hkeyed hpoint)⟩

/-- An entry on top, and one of a section besides a field of the section. -/
def themedSource : Option (List Nat) :=
  some (asciiBytes "theme = \"dark\"\n[console]\nwidth = 80\nheight = 5\n")

theorem load_extra_themed :
    load atHome [] themedSource = .ok { Config.defaults with
        height := 5
        extra := [("theme".toList, .text "dark".toList), ("console.width".toList, .int 80)] } ∧
      ∃ document, readDocument atHome.reading themedSource = .ok document ∧
        2 = ((namedLeftovers document).map (·.1)).dedup.length := by
  have hthemed : readDocument atHome.reading themedSource =
      .ok [("theme".toList, .text "dark".toList),
        ("console".toList, .table [("width".toList, .int 80), ("height".toList, .int 5)])] := by
    cbv
  have hload : load atHome [] themedSource = .ok { Config.defaults with
      height := 5
      extra := [("theme".toList, .text "dark".toList), ("console.width".toList, .int 80)] } := by
    rw [load_of_readDocument hthemed]
    with_unfolding_all rfl
  obtain ⟨document, hread, -, -, -, -, -, hlength, -⟩ := load_extra hload
  exact ⟨hload, document, hread, hlength⟩

/-- An entry on top with a point in its name, and an entry of a section that gets the same
name. -/
def hiddenSource : Option (List Nat) := some (asciiBytes "\"a.b\" = 1\n[a]\nb = 2\n")

/-- Of two entries with the same name one is lost. -/
theorem exists_leftover_lost :
    ∃ document c, readDocument atHome.reading hiddenSource = .ok document ∧
      load atHome [] hiddenSource = .ok c ∧
      IsLeft document (.top "a.b".toList) (.int 1) ∧
      IsLeft document (.within "a".toList "b".toList) (.int 2) ∧
      c.extra = [("a.b".toList, .int 2)] := by
  have hread : readDocument atHome.reading hiddenSource =
      .ok [("a.b".toList, .int 1), ("a".toList, .table [("b".toList, .int 2)])] := by
    cbv
  have hload : load atHome [] hiddenSource =
      .ok { Config.defaults with extra := [("a.b".toList, .int 2)] } := by
    rw [load_of_readDocument hread]
    with_unfolding_all rfl
  refine ⟨_, _, hread, hload, .top List.mem_cons_self ?_, ?_, rfl⟩
  · intro entries h
    cases h
  · refine .within (List.mem_cons_of_mem _ List.mem_cons_self) List.mem_cons_self fun f => ?_
    cases f <;> decide

end AliasConsole.Config
