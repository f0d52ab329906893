import AliasConsole.Proofs.Completion.Causality
import AliasConsole.Proofs.Completion.Menu
import AliasConsole.Proofs.Registration

/-!
# Commands that miss the first token

A command none of whose aliases holds the first token is not kept for the second one, so
nothing of it is seen but its first position.  There it finds nothing, and the choice of
the bucket, the common prefix and the menu go by what is found.  Registering such
commands therefore changes no completion of the line, whatever their other positions
accept, and whatever evaluating the first position does to the world.
-/

namespace AliasConsole

variable {W : Type}

/-- In every world the first position of the command gives groups without an alias that
holds the token, unless the command has no position. -/
def Command.Misses (c : Command W) (token : Text) : Prop :=
  ∀ slot ∈ c.slots.head?, ∀ w, ∃ groups w', slot.groups w = .ok groups w' ∧
    ∀ aliases ∈ groups, ∀ spelling ∈ aliases, (rank token spelling).position = none

/-- The positions of the command that completion looks at never change their groups. -/
def Command.Steady (c : Command W) (limited : Bool) : Prop :=
  ∀ position < c.reach limited, ∃ groups, AlwaysGives (c.groupsAt position) groups

theorem Registry.Steady.command {r : Registry W} (hsteady : r.Steady)
    (hformed : r.WellFormed) (limited : Bool) {c : Command W} (hc : c ∈ r.commands) :
    c.Steady limited := by
  intro position hposition
  have hslot := List.getElem?_eq_getElem
    (lt_of_lt_of_le hposition (hformed.reach_le hc limited))
  obtain ⟨groups, hgroups⟩ := hsteady c hc _ (List.mem_of_getElem? hslot)
  exact ⟨groups, groupsAt_of_getElem? hslot ▸ hgroups⟩

section Entries

variable {limited : Bool} {position : ℕ} {entries front back : List (Entry W)}
  {token : Text}

/-! ## Commands that do not change -/

theorem exists_alwaysGives_evaluateAt (h : ∀ e ∈ entries, e.1.Steady limited)
    (position : ℕ) : ∃ evaluated, AlwaysGives (evaluateAt limited position entries) evaluated := by
  induction entries with
  | nil => exact ⟨[], .pure []⟩
  | cons e rest ih =>
      obtain ⟨c, index⟩ := e
      obtain ⟨hc, hrest⟩ := List.forall_mem_cons.mp h
      obtain ⟨evaluated, hevaluated⟩ := ih hrest
      rw [evaluateAt]
      split_ifs with hreach
      · obtain ⟨groups, hgroups⟩ := hc position hreach
        exact ⟨_, hgroups.bind (hevaluated.bind (.pure _))⟩
      · exact ⟨evaluated, hevaluated⟩

theorem exists_alwaysGives_narrowFrom (h : ∀ e ∈ entries, e.1.Steady limited)
    (position : ℕ) (tokens : List Text) :
    ∃ narrowings, AlwaysGives (narrowFrom limited position entries tokens) narrowings := by
  induction tokens generalizing entries position with
  | nil => exact ⟨[], .pure []⟩
  | cons token rest ih =>
      obtain ⟨evaluated, hevaluated⟩ := exists_alwaysGives_evaluateAt h position
      have hkept : ∀ e ∈ entries.filter fun e => (Narrowing.of token evaluated).keeps e.2,
          e.1.Steady limited := fun e he => h e (List.mem_filter.mp he).1
      obtain ⟨later, hlater⟩ := ih hkept (position + 1)
      exact ⟨_, hevaluated.bind (hlater.bind (.pure _))⟩

/-! ## Commands that find nothing -/

theorem evaluateAt_append_of_ok {evaluated more : List (ℕ × List AliasGroup)} {w w₁ w₂ : W}
    (hfront : evaluateAt limited position front w = .ok evaluated w₁)
    (hback : evaluateAt limited position back w₁ = .ok more w₂) :
    evaluateAt limited position (front ++ back) w = .ok (evaluated ++ more) w₂ := by
  induction front generalizing w evaluated with
  | nil =>
      obtain ⟨rfl, rfl⟩ := EStateM.Result.ok.inj hfront
      exact hback
  | cons e rest ih =>
      obtain ⟨c, index⟩ := e
      rw [evaluateAt] at hfront
      rw [List.cons_append, evaluateAt]
      split_ifs at hfront ⊢ with hreach
      · obtain ⟨groups, between, hgroups, hfront⟩ := exists_ok_of_bind_ok hfront
        obtain ⟨others, last, hothers, hfront⟩ := exists_ok_of_bind_ok hfront
        obtain ⟨rfl, rfl⟩ := EStateM.Result.ok.inj hfront
        rw [bind_of_ok hgroups, bind_of_ok (ih hothers)]
        rfl
      · exact ih hfront

theorem mem_of_mem_evaluated {evaluated : List (ℕ × List AliasGroup)} {w w' : W}
    (h : evaluateAt limited position entries w = .ok evaluated w') :
    ∀ x ∈ evaluated, ∃ e ∈ entries, e.2 = x.1 := by
  induction entries generalizing w evaluated with
  | nil =>
      obtain ⟨rfl, -⟩ := EStateM.Result.ok.inj h
      exact List.forall_mem_nil _
  | cons e rest ih =>
      obtain ⟨c, index⟩ := e
      have hrest : ∀ {others v}, evaluateAt limited position rest v = .ok others w' →
          ∀ x ∈ others, ∃ e ∈ (c, index) :: rest, e.2 = x.1 := by
        intro others v hothers x hx
        obtain ⟨e, he, hindex⟩ := ih hothers x hx
        exact ⟨e, List.mem_cons_of_mem _ he, hindex⟩
      rw [evaluateAt] at h
      split_ifs at h with hreach
      · obtain ⟨groups, between, -, h⟩ := exists_ok_of_bind_ok h
        obtain ⟨others, last, hothers, h⟩ := exists_ok_of_bind_ok h
        obtain ⟨rfl, rfl⟩ := EStateM.Result.ok.inj h
        exact List.forall_mem_cons.mpr ⟨⟨_, List.mem_cons_self, rfl⟩, hrest hothers⟩
      · exact hrest h

theorem groupMatches_eq_nil {query : Text} {groups : List AliasGroup}
    (h : ∀ aliases ∈ groups, ∀ spelling ∈ aliases, (rank query spelling).position = none)
    (command : ℕ) : groupMatches query command groups = [] := by
  refine List.eq_nil_iff_forall_not_mem.mpr fun m hm => ?_
  obtain ⟨aliases, hgroup, hstands⟩ := mem_groupMatches_iff.mp hm
  exact hstands.isBest.holds
    (h aliases (List.mem_of_getElem? hgroup) m.best hstands.isBest.firstLeast.mem)

/-- Commands that miss the token are evaluated without a failure and find nothing. -/
theorem exists_evaluateAt_of_misses (hmisses : ∀ e ∈ entries, e.1.Misses token)
    (hreach : ∀ e ∈ entries, e.1.reach limited ≤ e.1.slots.length) (w : W) :
    ∃ evaluated w', evaluateAt limited 0 entries w = .ok evaluated w' ∧
      ∀ x ∈ evaluated, groupMatches (Text.lower token) x.1 x.2 = [] := by
  induction entries generalizing w with
  | nil => exact ⟨[], w, rfl, List.forall_mem_nil _⟩
  | cons e rest ih =>
      obtain ⟨c, index⟩ := e
      obtain ⟨hc, hrest⟩ := List.forall_mem_cons.mp hmisses
      obtain ⟨hle, hreach⟩ := List.forall_mem_cons.mp hreach
      rw [evaluateAt]
      split_ifs with hcovers
      · have hslot := List.getElem?_eq_getElem (lt_of_lt_of_le hcovers hle)
        obtain ⟨groups, between, hgroups, hnone⟩ := hc _ (List.head?_eq_getElem?.trans hslot) w
        obtain ⟨others, last, hothers, hfound⟩ := ih hrest hreach between
        rw [← groupsAt_of_getElem? hslot] at hgroups
        refine ⟨_, last, (bind_of_ok hgroups).trans (bind_of_ok hothers), ?_⟩
        refine List.forall_mem_cons.mpr ⟨groupMatches_eq_nil ?_ index, hfound⟩
        intro aliases haliases spelling hspelling
        rw [rank_lower]
        exact hnone aliases haliases spelling hspelling
      · exact ih hrest hreach w

end Entries

namespace Narrowing

variable {token : Text} {evaluated more : List (ℕ × List AliasGroup)}

/-- Groups without a match change no narrowing. -/
theorem of_append_of_no_match
    (hmore : ∀ x ∈ more, groupMatches (Text.lower token) x.1 x.2 = []) :
    Narrowing.of token (evaluated ++ more) = Narrowing.of token evaluated := by
  rw [Narrowing.of, Narrowing.of, List.flatMap_append, List.flatMap_eq_nil_iff.mpr hmore,
    List.append_nil]

theorem mem_of_keeps {command : ℕ} (h : (Narrowing.of token evaluated).keeps command = true) :
    ∃ x ∈ evaluated, x.1 = command := by
  rw [keeps, List.any_eq_true] at h
  obtain ⟨m, hm, hcommand⟩ := h
  obtain ⟨x, hx, hgroup⟩ := List.mem_flatMap.mp ((selected_sublist _).subset hm)
  obtain ⟨aliases, -, hstands⟩ := mem_groupMatches_iff.mp hgroup
  have hcommand' : m.command = command := by simpa using hcommand
  exact ⟨x, hx, hstands.command_eq.symm.trans hcommand'⟩

end Narrowing

theorem filter_keeps_eq_nil {limited : Bool} {position : ℕ} {front back : List (Entry W)}
    {token : Text} {evaluated : List (ℕ × List AliasGroup)} {w w' : W}
    (h : evaluateAt limited position front w = .ok evaluated w')
    (hother : ∀ d ∈ front, ∀ e ∈ back, d.2 ≠ e.2) :
    back.filter (fun e => (Narrowing.of token evaluated).keeps e.2) = [] := by
  refine List.filter_eq_nil_iff.mpr fun e he hkeeps => ?_
  obtain ⟨x, hx, hcommand⟩ := Narrowing.mem_of_keeps hkeeps
  obtain ⟨d, hd, hindex⟩ := mem_of_mem_evaluated h x hx
  exact hother d hd e he (hindex.trans hcommand)

/-! ## More commands -/

/-- Entries behind the others whose commands miss the first token change no narrowing. -/
theorem exists_alwaysGives_narrowFrom_append {limited : Bool} {front back : List (Entry W)}
    {token : Text} (hfront : ∀ e ∈ front, e.1.Steady limited)
    (hback : ∀ e ∈ back, e.1.Misses token)
    (hreach : ∀ e ∈ back, e.1.reach limited ≤ e.1.slots.length)
    (hother : ∀ d ∈ front, ∀ e ∈ back, d.2 ≠ e.2) (rest : List Text) :
    ∃ narrowings, AlwaysGives (narrowFrom limited 0 front (token :: rest)) narrowings ∧
      AlwaysGives (narrowFrom limited 0 (front ++ back) (token :: rest)) narrowings := by
  obtain ⟨evaluated, hevaluated⟩ := exists_alwaysGives_evaluateAt hfront 0
  let n := Narrowing.of token evaluated
  have hkept : ∀ e ∈ front.filter fun e => n.keeps e.2, e.1.Steady limited := fun e he =>
    hfront e (List.mem_filter.mp he).1
  obtain ⟨later, hlater⟩ := exists_alwaysGives_narrowFrom hkept 1 rest
  refine ⟨n :: later, hevaluated.bind (hlater.bind (.pure _)), fun w => ?_⟩
  obtain ⟨w₁, hold⟩ := hevaluated w
  obtain ⟨others, w₂, hnew, hnone⟩ := exists_evaluateAt_of_misses hback hreach w₁
  have hboth := evaluateAt_append_of_ok hold hnew
  have hsame : Narrowing.of token (evaluated ++ others) = n :=
    Narrowing.of_append_of_no_match hnone
  have hdropped : back.filter (fun e => n.keeps e.2) = [] := filter_keeps_eq_nil hold hother
  obtain ⟨w₃, hrest⟩ := hlater w₂
  refine ⟨w₃, ?_⟩
  rw [narrowFrom, bind_of_ok hboth]
  simp only [hsame, List.filter_append, hdropped, List.append_nil]
  rw [bind_of_ok hrest]
  rfl

theorem exists_alwaysGives_narrow_append {r : Registry W} {more : List (Command W)}
    (hsteady : r.Steady) (hformed : r.WellFormed) {token : Text}
    (hmisses : ∀ c ∈ more, c.Misses token) {limited : Bool}
    (hreach : ∀ c ∈ more, c.reach limited ≤ c.slots.length) (rest : List Text)
    (literals : List (Literal W)) :
    ∃ narrowings, AlwaysGives (narrow r limited (token :: rest)) narrowings ∧
      AlwaysGives (narrow ⟨r.commands ++ more, literals⟩ limited (token :: rest)) narrowings := by
  have hentries : (r.commands ++ more).zipIdx =
      r.commands.zipIdx ++ more.zipIdx r.commands.length := by
    rw [List.zipIdx_append, Nat.zero_add]
  rw [narrow, narrow, hentries]
  refine exists_alwaysGives_narrowFrom_append
    (fun e he => hsteady.command hformed limited (List.fst_mem_of_mem_zipIdx he))
    (fun e he => hmisses e.1 (List.fst_mem_of_mem_zipIdx he))
    (fun e he => hreach e.1 (List.fst_mem_of_mem_zipIdx he)) (fun d hd e he => ?_) rest
  have hlt := List.snd_lt_of_mem_zipIdx hd
  have hle := List.le_snd_of_mem_zipIdx he
  omega

/-- Commands that miss the first token of a line leave its completion and its menu as
they are. -/
theorem autocomplete_offerAll_of_misses {r : Registry W} (hsteady : r.Steady)
    (hformed : r.WellFormed) (requests : List (Registration W (Script W))) {line token : Text}
    (htoken : (tokenize line).head? = some token)
    (hmisses : ∀ c ∈ (r.offerAll requests).commands.drop r.commands.length, c.Misses token) :
    (∀ options, ∃ completion, AlwaysGives (autocomplete r options line) completion ∧
        AlwaysGives (autocomplete (r.offerAll requests) options line) completion) ∧
      ∃ words, AlwaysGives (suggest r line) words ∧
        AlwaysGives (suggest (r.offerAll requests) line) words := by
  obtain ⟨more, hmore⟩ := (Registry.extends_offerAll r requests).commands
  rw [← hmore, List.drop_left] at hmisses
  have hnew : ∀ limited, ∀ c ∈ more, c.reach limited ≤ c.slots.length := by
    intro limited c hc
    have hmem : c ∈ (r.offerAll requests).commands := hmore ▸ List.mem_append_right _ hc
    exact (hformed.offerAll requests).reach_le hmem limited
  have hregistry : r.offerAll requests =
      ⟨r.commands ++ more, (r.offerAll requests).literals⟩ := by
    rw [hmore]
  obtain ⟨rest, htokens⟩ : ∃ rest, tokenize line = token :: rest :=
    List.head?_eq_some_iff.mp htoken
  have hnarrow : ∀ limited, ∃ narrowings, AlwaysGives (narrow r limited (tokenize line))
      narrowings ∧ AlwaysGives (narrow (r.offerAll requests) limited (tokenize line))
      narrowings := by
    intro limited
    rw [hregistry, htokens]
    exact exists_alwaysGives_narrow_append hsteady hformed hmisses (hnew limited) rest _
  constructor
  · intro options
    obtain ⟨narrowings, hold, hnew⟩ := hnarrow options.limitToFixed
    exact ⟨_, hold.autocomplete, hnew.autocomplete⟩
  · obtain ⟨narrowings, hold, hnew⟩ := hnarrow false
    exact ⟨_, hold.suggest, hnew.suggest⟩

/-- A command whose first position changes the world and offers nothing that holds a t,
and whose second position accepts everything that comes up; a command without positions,
a request that is refused and a literal. -/
def arrivals : List (Registration ℕ (Script ℕ)) :=
  [.aliases [.candidates (.live fun count => .ok (List.replicate count ["go".toList]) (count + 7)),
      .value (.list [.text "al".toList, .text "alpha".toList]) 0] none fun _ => Script.say [],
    .aliases [] none fun _ => Script.say [],
    .literal [] fun _ => Script.say [],
    .literal "te al".toList fun _ => Script.say []]

theorem autocomplete_offerAll_of_misses_ticking :
    Registry.ticking.Steady ∧ Registry.ticking.WellFormed ∧
      (tokenize "te al".toList).head? = some "te".toList ∧
      (Registry.ticking.offerAll arrivals).commands.length = Registry.ticking.commands.length + 2 ∧
      (Registry.ticking.offerAll arrivals).literals.length = 1 ∧
      (∀ c ∈ (Registry.ticking.offerAll arrivals).commands.drop Registry.ticking.commands.length,
        c.Misses "te".toList) ∧
      (∃ completion, AlwaysGives (autocomplete Registry.ticking .full "te al".toList) completion ∧
        AlwaysGives (autocomplete (Registry.ticking.offerAll arrivals) .full "te al".toList)
          completion) ∧
      ∃ words, AlwaysGives (suggest Registry.ticking "te al".toList) words ∧
        AlwaysGives (suggest (Registry.ticking.offerAll arrivals) "te al".toList) words := by
  have hsteady := Registry.ticking_steady
  have hformed : Registry.ticking.WellFormed := by decide
  have htoken : (tokenize "te al".toList).head? = some "te".toList := by decide
  have hmisses : ∀ c ∈ (Registry.ticking.offerAll arrivals).commands.drop
      Registry.ticking.commands.length, c.Misses "te".toList := by
    refine List.forall_mem_cons.mpr ⟨?_, List.forall_mem_cons.mpr ⟨?_, List.forall_mem_nil _⟩⟩
    · intro slot hslot w
      obtain rfl := Option.some.inj hslot
      refine ⟨_, _, rfl, fun aliases haliases spelling hspelling => ?_⟩
      obtain rfl := List.eq_of_mem_replicate haliases
      obtain rfl := List.mem_singleton.mp hspelling
      decide
    · intro slot hslot
      cases hslot
  obtain ⟨hcompletes, hsuggests⟩ :=
    autocomplete_offerAll_of_misses hsteady hformed arrivals htoken hmisses
  exact ⟨hsteady, hformed, htoken, rfl, rfl, hmisses, hcompletes .full, hsuggests⟩

end AliasConsole
