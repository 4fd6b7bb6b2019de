import CommandTree.Proofs.Signature.Spelling

/-!
# Words after the terminator

A command may pass on words that are not its own: its only cardinal is greedy and takes all words after `--`.
What is shown here is that these words are taken as they are, whatever they look like, and change nothing about the
values of the words in front of `--` (`Signature.parse_terminator`).

The invariant of the front is `Walk.IsWaiting`: as long as the greedy cardinal has no value, the walk is where a
switch may stand or awaits the value of an option, so that at its end only `--` was missing.
-/

namespace CommandTree

namespace Walk

variable {sig : Signature} {walk next last : Walk} {d : Declaration} {word : Text} {front : List Text}
  {raw : Values}

/-! ## Before the terminator -/

/-- Whether the greedy cardinal is the only one, and words were given to it only where it captures. -/
structure IsWaiting (d : Declaration) (walk : Walk) : Prop where
  cardinals : walk.cardinals = [d]
  unterminated : walk.mode ≠ .words
  captured : ∀ key, walk.mode = .capturing key → d.key ∈ walk.keys

/-- Where a switch may stand, nothing is asked of the values. -/
theorem IsWaiting.of_free (hcards : walk.cardinals = [d]) (hmode : walk.mode = .free) : IsWaiting d walk :=
  ⟨hcards, by simp [hmode], by simp [hmode]⟩

theorem keys_appendTo (key word : Text) (values : Values) :
    Assoc.keys (appendTo key word values) = Assoc.keys values := by
  rw [appendTo, Assoc.keys, Assoc.keys, List.map_map]
  refine List.map_congr_left fun entry _ => ?_
  obtain ⟨k, value⟩ := entry
  cases value with
  | captured texts => by_cases hk : k = key <;> simp [hk]
  | _ => rfl

theorem IsWaiting.of_step (h : IsWaiting d walk) (hgreedy : d.isGreedy = true) (hword : word ≠ terminator)
    (hstep : step sig walk word = .ok next) : IsWaiting d next := by
  cases hmode : walk.mode with
  | free =>
    have hfree := (step_free_eq_ok_iff hmode).mp hstep
    cases hfree with
    | terminator => exact absurd rfl hword
    | flag names kind new => exact .of_free h.cardinals hmode
    | option names kind => exact ⟨h.cardinals, nofun, nofun⟩
    | inline names kind nonempty new => exact .of_free h.cardinals hmode
    | cluster nonempty cluster => exact .of_free h.cardinals hmode
    | idle rest => exact .of_free h.cardinals hmode
    | word cardinals plain noSwitch =>
      cases h.cardinals.symm.trans cardinals
      rw [hgreedy] at plain
      cases plain
    | capture cardinals greedy noSwitch =>
      cases h.cardinals.symm.trans cardinals
      exact ⟨h.cardinals, nofun, fun key _ => by simp [keys]⟩
  | awaiting option index =>
    obtain ⟨-, -, rfl⟩ := (step_awaiting_eq_ok_iff hmode).mp hstep
    exact .of_free h.cardinals rfl
  | words => exact absurd hmode h.unterminated
  | capturing key =>
    rw [step_capturing hmode, Except.ok.injEq] at hstep
    subst hstep
    have hkeys : d.key ∈ Assoc.keys (appendTo key word walk.values) := by
      rw [keys_appendTo]
      exact h.captured key hmode
    exact ⟨h.cardinals, by simp [hmode], fun _ _ => hkeys⟩

theorem IsWaiting.of_run (h : IsWaiting d walk) (hgreedy : d.isGreedy = true) (hfront : terminator ∉ front)
    (hrun : run sig walk front = .ok last) : IsWaiting d last := by
  induction front generalizing walk with
  | nil =>
    cases hrun
    exact h
  | cons word rest ih =>
    obtain ⟨next, hstep, hrest⟩ := run_cons_eq_ok_iff.mp hrun
    obtain ⟨hword, hnext⟩ := not_or.mp (mt List.mem_cons.mpr hfront)
    exact ih (h.of_step hgreedy (Ne.symm hword) hstep) hnext hrest

/-- At the end of words that give nothing to the greedy cardinal, a switch may stand. -/
theorem IsWaiting.free_of_finish (h : IsWaiting d last) (hfinish : last.finish = .ok raw)
    (hnone : d.key ∉ Assoc.keys raw) : last.mode = .free ∧ last.values = raw := by
  unfold finish at hfinish
  cases hmode : last.mode with
  | free =>
    rw [hmode] at hfinish
    exact ⟨rfl, Except.ok.inj hfinish⟩
  | awaiting option index =>
    rw [hmode] at hfinish
    cases hfinish
  | words => exact absurd hmode h.unterminated
  | capturing key =>
    rw [hmode] at hfinish
    cases hfinish
    exact absurd (h.captured key hmode) hnone

/-! ## From the terminator on -/

/-- What words after the terminator give to the greedy cardinal. -/
def capture (d : Declaration) : List Text → Values
  | [] => []
  | word :: words => [(d.key, .captured (word :: words))]

theorem run_terminator (hmode : walk.mode = .free) (hcards : walk.cardinals = [d]) (hgreedy : d.isGreedy = true)
    (hnew : d.key ∉ walk.keys) (words : List Text) :
    ∃ last, run sig walk (terminator :: words) = .ok last ∧ last.finish = .ok (walk.values ++ capture d words) := by
  have hstep : step sig walk terminator = .ok { walk with read := walk.read + 1, mode := .words } :=
    (step_free_eq_ok_iff hmode).mpr .terminator
  cases words with
  | nil => exact ⟨_, run_cons_eq_ok_iff.mpr ⟨_, hstep, rfl⟩, by simp [finish, capture]⟩
  | cons word words =>
    have hword : step sig { walk with read := walk.read + 1, mode := .words } word = .ok
        { (Walk.give { walk with read := walk.read + 1, mode := .words } [(d.key, .captured [word])]) with
          read := walk.read + 1 + 1, mode := .capturing d.key } := by
      rw [step_words rfl, takeWord_eq_ok_iff]
      exact ⟨d, [], hcards, .inr ⟨hgreedy, rfl⟩⟩
    obtain ⟨last, hrun, hlast⟩ : ∃ last,
        run sig { walk with read := walk.read + 1, mode := .words } (word :: words) = .ok last ∧
          last.finish = .ok (walk.values ++ [(d.key, .captured (word :: words))]) :=
      run_of_capture hword hnew
    exact ⟨last, run_cons_eq_ok_iff.mpr ⟨_, hstep, hrun⟩, hlast⟩

end Walk

namespace Signature

open Walk (capture)

variable {sig : Signature} {d : Declaration} {front : List Text} {raw values : Values} {keys others : List Text}

theorem walk_terminator (hcards : sig.cardinals = [d]) (hgreedy : d.isGreedy = true) (hwalk : sig.walk front = .ok raw)
    (hfront : terminator ∉ front) (hnone : d.key ∉ Assoc.keys raw) (words : List Text) :
    sig.walk (front ++ terminator :: words) = .ok (raw ++ capture d words) := by
  obtain ⟨last, hrun, hfinish⟩ := walk_eq_ok_iff.mp hwalk
  have hstart : Walk.IsWaiting d (.start sig) := .of_free hcards rfl
  have hwaiting := hstart.of_run hgreedy hfront hrun
  obtain ⟨hfree, rfl⟩ := hwaiting.free_of_finish hfinish hnone
  obtain ⟨final, hfinal, hvalues⟩ := Walk.run_terminator hfree hwaiting.cardinals hgreedy hnone words
  exact walk_eq_ok_iff.mpr ⟨final, Walk.run_append_eq_ok_iff.mpr ⟨last, hrun, hfinal⟩, hvalues⟩

/-! ## The check as a whole -/

/-- More keys of arguments that are not exclusive are no reason to object. -/
theorem objectionTo?_of_subset (h : sig.objectionTo? keys = none) (hsubset : keys ⊆ others)
    (hplain : ∀ e ∈ sig.present others, e.exclusive = false) : sig.objectionTo? others = none := by
  have hpresent : sig.present keys ⊆ sig.present others := by
    intro e he
    obtain ⟨hdeclared, hkey⟩ := eq_of_mem_present.mp he
    exact eq_of_mem_present.mpr ⟨hdeclared, hsubset hkey⟩
  have hfilter : ∀ {keys : List Text}, (∀ e ∈ sig.present keys, e.exclusive = false) →
      (sig.present keys).filter Declaration.exclusive = [] := by
    intro keys hall
    exact List.filter_eq_nil_iff.mpr fun e he => by simp [hall e he]
  have hmissing : sig.firstMissing? keys = none := by
    simpa [objectionTo?, hfilter fun e he => hplain e (hpresent he)] using h
  have hmore : sig.firstMissing? others = none := by
    rw [firstMissing?, List.find?_eq_none] at hmissing ⊢
    intro e he
    have hkey := hmissing e he
    simp only [Bool.and_eq_true, Bool.not_eq_true', decide_eq_false_iff_not, not_and, not_not] at hkey ⊢
    exact fun hrequired => hsubset (hkey hrequired)
  simp [objectionTo?, hfilter hplain, hmore]

/-! ## Values -/

theorem lookup_valuesOf (ds : List Declaration) (values : Values) (key : Text) :
    List.lookup key (valuesOf ds values) =
      if key ∈ ds.map Declaration.key then List.lookup key values else none := by
  induction ds with
  | nil => rfl
  | cons d ds ih =>
    have hstep : valuesOf (d :: ds) values =
        ((List.lookup d.key values).map fun value => (d.key, value)).toList ++ valuesOf ds values := by
      cases hlookup : List.lookup d.key values <;> simp [valuesOf, hlookup]
    rw [hstep, List.lookup_append, ih]
    by_cases hkey : key = d.key
    · subst hkey
      cases hlookup : List.lookup d.key values <;> simp
    · cases hlookup : List.lookup d.key values <;> simp [List.lookup_cons, beq_false_of_ne hkey, hkey]

/-- Reading the values of all declarations. -/
theorem lookup_valuesOf_declarations {e : Declaration} (he : e ∈ sig.declarations) :
    List.lookup e.key (valuesOf sig.declarations raw) = List.lookup e.key raw := by
  rw [lookup_valuesOf, if_pos (List.mem_map_of_mem he)]

/-- Words after `--` are taken as they are by the greedy cardinal, and the values of the words in front stay as
they are. -/
theorem parse_terminator (hcards : sig.cardinals = [d]) (hgreedy : d.isGreedy = true) (hshared : d.exclusive = false)
    (hparse : sig.parse front = .ok values) (hfront : terminator ∉ front) (hnone : d.key ∉ Assoc.keys values)
    (hplain : ∀ e ∈ sig.declarations, e.key ∈ Assoc.keys values → e.exclusive = false) (words : List Text) :
    ∃ more, sig.parse (front ++ terminator :: words) = .ok more ∧
      (∀ key, key ≠ d.key → List.lookup key more = List.lookup key values) ∧
      List.lookup d.key more = List.lookup d.key (capture d words) := by
  obtain ⟨raw, hwalk, hobjection, rfl⟩ := parse_eq_ok_iff_walk.mp hparse
  have hd : d ∈ sig.declarations := (mem_cardinals.mp (hcards ▸ List.mem_cons_self)).1
  have hraw : ∀ e ∈ sig.declarations, e.key ∈ Assoc.keys raw ↔ e.key ∈ Assoc.keys (valuesOf sig.declarations raw) := by
    intro e he
    rw [Assoc.mem_keys_iff, Assoc.mem_keys_iff, lookup_valuesOf_declarations he]
  rw [← hraw d hd] at hnone
  have hcapture : ∀ key, key ≠ d.key → List.lookup key (capture d words) = none := by
    intro key hkey
    cases words with
    | nil => rfl
    | cons word words => simp [capture, List.lookup_cons, beq_false_of_ne hkey]
  have hkeys : Assoc.keys (capture d words) ⊆ [d.key] := by
    cases words <;> simp [capture, Assoc.keys]
  have hsplit : Assoc.keys (raw ++ capture d words) = Assoc.keys raw ++ Assoc.keys (capture d words) :=
    List.map_append
  have hall : sig.objectionTo? (Assoc.keys (raw ++ capture d words)) = none := by
    apply objectionTo?_of_subset hobjection
    · rw [hsplit]
      exact List.subset_append_left _ _
    · intro e he
      obtain ⟨hdeclared, hkey⟩ := eq_of_mem_present.mp he
      rw [hsplit] at hkey
      rcases List.mem_append.mp hkey with hfirst | hlast
      · exact hplain e hdeclared ((hraw e hdeclared).mp hfirst)
      · have hsame : e.key = d.key := List.mem_singleton.mp (hkeys hlast)
        rwa [eq_of_key_eq hdeclared hd hsame]
  refine ⟨_, parse_eq_ok_iff_walk.mpr ⟨_, walk_terminator hcards hgreedy hwalk hfront hnone words, hall, rfl⟩, ?_, ?_⟩
  · intro key hkey
    rw [lookup_valuesOf, lookup_valuesOf, List.lookup_append, hcapture key hkey, Option.or_none]
  · rw [lookup_valuesOf_declarations hd, List.lookup_append, Assoc.lookup_eq_none_iff.mpr hnone, Option.none_or]

end Signature

end CommandTree
