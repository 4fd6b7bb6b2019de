import CommandTree.Node.Run
import CommandTree.Proofs.Script.Compilation
import CommandTree.Proofs.Signature.Locality
import CommandTree.Proofs.Signature.Terminator

/-!
# For which argument the next word is

A command line that is not finished lacks an argument, or the value of an option; this is the argument for which
completions are offered (`ArgumentFault.awaited?`).  Here it is compared with the argument that gets one more word.

A word goes to the option that waits for a value, or else to the first cardinal without one
(`Signature.nextCardinal?`).  That the cardinals with a value are the first ones is the invariant `Walk.Fills`, kept
by every step.  The first required argument that is missing need not be the first cardinal without a value, as one
that is optional may stand before it; and a value that is missing in the middle of a line stays missing.

`Signature.next_word` says that the argument receives the word if it is the one that the word is for, and what comes
of the word otherwise.
-/

namespace CommandTree

theorem Assoc.eq_singleton {α : Type} {table : Assoc Text α} {key only : Text} {value : α}
    (hkeys : keys table = [only]) (hlookup : List.lookup key table = some value) : table = [(key, value)] := by
  obtain ⟨⟨k, v⟩, rfl, -⟩ := List.map_eq_singleton_iff.mp hkeys
  rw [List.lookup_cons] at hlookup
  split at hlookup
  · rename_i hkey
    rw [eq_of_beq hkey, Option.some.inj hlookup]
  · cases hlookup

namespace Declaration

/-- The value of a declaration that takes one word. -/
def taking (d : Declaration) (word : Text) : Value :=
  if d.isGreedy then .captured [word] else .text word

theorem isGreedy_of_switch {d : Declaration} (h : d.isCardinal = false) : d.isGreedy = false := by
  cases hkind : d.kind <;> simp_all [isGreedy, isCardinal]

end Declaration

namespace Walk

variable {sig : Signature} {walk next last : Walk} {filled : List Declaration} {d : Declaration} {word : Text}
  {words : List Text}

/-! ## The cardinals without a value -/

/-- The cardinals that have no value yet. -/
def left (walk : Walk) : List Declaration :=
  match walk.mode with
  | .capturing _ => []
  | _ => walk.cardinals

theorem left_of_not_capturing (h : ∀ key, walk.mode ≠ .capturing key) : walk.left = walk.cardinals := by
  unfold left
  split
  · rename_i key hmode
    exact absurd hmode (h key)
  · rfl

/-- Whether some cardinals, the first ones, are those that have a value; an option that waits for one is a switch. -/
structure Fills (sig : Signature) (filled : List Declaration) (walk : Walk) : Prop where
  split : sig.cardinals = filled ++ walk.left
  given : ∀ d ∈ sig.cardinals, d.key ∈ walk.keys ↔ d ∈ filled
  option : ∀ d index, walk.mode = .awaiting d index → d ∈ sig.switches

theorem fills_start (sig : Signature) : Fills sig [] (start sig) where
  split := rfl
  given := by simp [start, keys]
  option := nofun

/-- Values of switches fill no cardinal. -/
theorem Fills.give_switches (h : Fills sig filled walk) {entries : Values}
    (hentries : ∀ key ∈ Assoc.keys entries, ∃ d ∈ sig.switches, d.key = key)
    (hkeys : next.keys = walk.keys ++ Assoc.keys entries) (hleft : next.left = walk.left)
    (hoption : ∀ d index, next.mode = .awaiting d index → d ∈ sig.switches) : Fills sig filled next where
  split := by rw [hleft, h.split]
  given d hd := by
    rw [hkeys, List.mem_append, h.given d hd, or_iff_left]
    intro hmem
    obtain ⟨e, he, hkey⟩ := hentries _ hmem
    exact Signature.key_ne_of_switch he hd hkey
  option := hoption

theorem Fills.given_snoc (h : Fills sig filled walk) (hd : d ∈ sig.cardinals) {value : Value} :
    ∀ e ∈ sig.cardinals, e.key ∈ (walk.give [(d.key, value)]).keys ↔ e ∈ filled ++ [d] := by
  intro e he
  have hsame : e.key = d.key ↔ e = d :=
    ⟨Signature.eq_of_key_eq (Signature.mem_cardinals.mp he).1 (Signature.mem_cardinals.mp hd).1, congrArg _⟩
  rw [keys_give, List.mem_append, List.mem_append, h.given e he, List.mem_singleton, ← hsame]
  simp [Assoc.keys]

/-- A word for a cardinal fills the first that is left. -/
theorem Fills.of_takeWord (h : Fills sig filled walk) (hopen : ∀ key, walk.mode ≠ .capturing key)
    (htake : walk.takeWord word = .ok next) : ∃ d, Fills sig (filled ++ [d]) next := by
  obtain ⟨d, rest, hcards, hnext⟩ := takeWord_eq_ok_iff.mp htake
  have hsplit : sig.cardinals = filled ++ d :: rest := by rw [h.split, left_of_not_capturing hopen, hcards]
  have hd : d ∈ sig.cardinals := by simp [hsplit]
  refine ⟨d, ?_⟩
  rcases hnext with ⟨-, rfl⟩ | ⟨hgreedy, rfl⟩
  · refine ⟨?_, h.given_snoc hd, h.option⟩
    have hleft : Walk.left { walk.give [(d.key, .text word)] with cardinals := rest } = rest :=
      left_of_not_capturing hopen
    rw [hleft, hsplit, List.append_assoc, List.singleton_append]
  · -- only the last cardinal is greedy, so none is left
    have hrest : rest = [] := by
      by_contra hne
      have hmem : d ∈ sig.cardinals.dropLast := by
        rw [hsplit, List.dropLast_append_of_ne_nil (by simp), List.dropLast_cons_of_ne_nil hne]
        simp
      rw [sig.wellMade.greedyLast d hmem] at hgreedy
      cases hgreedy
    exact ⟨by rw [hsplit, hrest]; exact (List.append_nil _).symm, h.given_snoc hd, nofun⟩

theorem Fills.of_step (h : Fills sig filled walk) (hstep : step sig walk word = .ok next) :
    ∃ filled, Fills sig filled next := by
  cases hmode : walk.mode with
  | free =>
    have hopen : ∀ key, walk.mode ≠ .capturing key := by simp [hmode]
    have hread : Fills sig filled { walk with read := walk.read + 1 } := ⟨h.split, h.given, h.option⟩
    have hsplit : sig.cardinals = filled ++ walk.cardinals := by rw [h.split, left_of_not_capturing hopen]
    have hone : ∀ {d : Declaration} {value : Value}, d ∈ sig.switches →
        ∀ key ∈ Assoc.keys [(d.key, value)], ∃ d ∈ sig.switches, d.key = key := by
      intro d value hd key hkey
      exact ⟨d, hd, (List.mem_singleton.mp hkey).symm⟩
    cases (step_free_eq_ok_iff hmode).mp hstep with
    | terminator => exact ⟨filled, hsplit, h.given, by simp⟩
    | flag names kind new => exact ⟨filled, h.give_switches (hone names.1) (keys_give _ _) rfl h.option⟩
    | option names kind =>
      refine ⟨filled, hsplit, h.given, fun d index hawaiting => ?_⟩
      cases hawaiting
      exact names.1
    | inline names kind nonempty new => exact ⟨filled, h.give_switches (hone names.1) (keys_give _ _) rfl h.option⟩
    | @cluster flags nonempty cluster =>
      refine ⟨filled, h.give_switches (fun key hkey => ?_) (keys_give _ _) rfl h.option⟩
      obtain ⟨d, hd, rfl⟩ : ∃ d ∈ flags, d.key = key := by simpa [Assoc.keys] using hkey
      exact ⟨d, (cluster.short d hd).1, rfl⟩
    | idle rest => exact ⟨filled, hread⟩
    | word cardinals plain noSwitch =>
      obtain ⟨d, hd⟩ := hread.of_takeWord hopen (takeWord_eq_ok_iff.mpr ⟨_, _, cardinals, .inl ⟨plain, rfl⟩⟩)
      exact ⟨_, hd⟩
    | capture cardinals greedy noSwitch =>
      obtain ⟨d, hd⟩ := hread.of_takeWord hopen (takeWord_eq_ok_iff.mpr ⟨_, _, cardinals, .inr ⟨greedy, rfl⟩⟩)
      exact ⟨_, hd⟩
  | awaiting option index =>
    obtain ⟨-, -, rfl⟩ := (step_awaiting_eq_ok_iff hmode).mp hstep
    have hleft : walk.left = walk.cardinals := left_of_not_capturing (by simp [hmode])
    refine ⟨filled, h.give_switches ?_ (keys_give _ [(option.key, .text word)]) hleft.symm (by simp)⟩
    intro key hkey
    exact ⟨option, h.option option index hmode, (List.mem_singleton.mp hkey).symm⟩
  | words =>
    have hread : Fills sig filled { walk with read := walk.read + 1 } := ⟨h.split, h.given, h.option⟩
    rw [step_words hmode] at hstep
    obtain ⟨d, hd⟩ := hread.of_takeWord (by simp [hmode]) hstep
    exact ⟨_, hd⟩
  | capturing key =>
    rw [step_capturing hmode, Except.ok.injEq] at hstep
    subst hstep
    refine ⟨filled, h.split, fun d hd => ?_, h.option⟩
    rw [← h.given d hd]
    exact iff_of_eq (congrArg (d.key ∈ ·) (keys_appendTo key word walk.values))

theorem Fills.of_run (h : Fills sig filled walk) (hrun : run sig walk words = .ok last) :
    ∃ filled, Fills sig filled last := by
  induction words generalizing walk filled with
  | nil =>
    cases hrun
    exact ⟨filled, h⟩
  | cons word rest ih =>
    obtain ⟨next, hstep, hrest⟩ := run_cons_eq_ok_iff.mp hrun
    obtain ⟨more, hnext⟩ := h.of_step hstep
    exact ih hnext hrest

/-- A word that is no switch goes to the first cardinal that is left. -/
theorem step_of_left {rest : List Declaration} (hleft : walk.left = d :: rest)
    (hmode : ∀ option index, walk.mode ≠ .awaiting option index) (hword : looksLikeSwitch word = false) :
    ∃ next, step sig walk word = .ok next ∧ next.finish = .ok (walk.values ++ [(d.key, d.taking word)]) := by
  have hopen : ∀ key, walk.mode ≠ .capturing key := by
    intro key hcapturing
    simp [left, hcapturing] at hleft
  rw [left_of_not_capturing hopen] at hleft
  have hcase : walk.mode = .free ∨ walk.mode = .words := by
    cases hcase : walk.mode with
    | free => exact .inl rfl
    | awaiting option index => exact absurd hcase (hmode option index)
    | words => exact .inr rfl
    | capturing key => exact absurd hcase (hopen key)
  have hstep : step sig walk word = takeWord { walk with read := walk.read + 1 } word := by
    rcases hcase with hfree | hwords
    · simp only [step, hfree, takeFree_word hword]
    · exact step_words hwords word
  cases hgreedy : d.isGreedy with
  | true =>
    refine ⟨_, hstep.trans (takeWord_eq_ok_iff.mpr ⟨d, rest, hleft, .inr ⟨hgreedy, rfl⟩⟩), ?_⟩
    simp [finish, Declaration.taking, hgreedy]
  | false =>
    refine ⟨_, hstep.trans (takeWord_eq_ok_iff.mpr ⟨d, rest, hleft, .inl ⟨hgreedy, rfl⟩⟩), ?_⟩
    rcases hcase with hcase | hcase <;> simp [finish, Declaration.taking, hgreedy, hcase]

end Walk

namespace Signature

variable {sig : Signature} {c d : Declaration} {words : List Text} {word : Text} {raw values : Values}
  {keys : List Text} {fault : ArgumentFault}

/-! ## The next cardinal -/

/-- The first cardinal without a value, where some keys have one. -/
def nextCardinal? (sig : Signature) (keys : List Text) : Option Declaration :=
  sig.cardinals.find? fun d => d.key ∉ keys

/-- What is left after some words begins with the first cardinal without a value. -/
theorem exists_left {last : Walk} {filled : List Declaration} (h : Walk.Fills sig filled last)
    (hnext : sig.nextCardinal? last.keys = some c) : ∃ rest, last.left = c :: rest := by
  have hfilled : filled.find? (fun d => d.key ∉ last.keys) = none := by
    refine List.find?_eq_none.mpr fun d hd => ?_
    simpa using (h.given d (by simp [h.split, hd])).mpr hd
  rw [nextCardinal?, h.split, List.find?_append, hfilled, Option.none_or] at hnext
  cases hleft : last.left with
  | nil =>
    rw [hleft] at hnext
    cases hnext
  | cons first rest =>
    have hfirst : first ∉ filled := by
      have hdistinct : (filled ++ first :: rest).Nodup := hleft ▸ h.split ▸ sig.nodup_cardinal_keys.of_map
      exact fun hmem => (List.nodup_append.mp hdistinct).2.2 first hmem first (by simp) rfl
    have hnew : first.key ∉ last.keys := mt (h.given first (by simp [h.split, hleft])).mp hfirst
    rw [hleft, List.find?_cons_of_pos (by simpa using hnew), Option.some.injEq] at hnext
    exact ⟨rest, by rw [hnext]⟩

theorem walk_append_of_step {last next : Walk} (hrun : Walk.run sig (.start sig) words = .ok last)
    (hstep : Walk.step sig last word = .ok next) (hfinish : next.finish = .ok raw) :
    sig.walk (words ++ [word]) = .ok raw := by
  have hone : Walk.run sig last [word] = .ok next := Walk.run_cons_eq_ok_iff.mpr ⟨next, hstep, rfl⟩
  exact walk_eq_ok_iff.mpr ⟨next, Walk.run_append_eq_ok_iff.mpr ⟨last, hrun, hone⟩, hfinish⟩

/-- One more word, which is no switch, is the value of the first cardinal without one. -/
theorem walk_append_word (hwalk : sig.walk words = .ok raw) (hnext : sig.nextCardinal? (Assoc.keys raw) = some c)
    (hword : looksLikeSwitch word = false) :
    sig.walk (words ++ [word]) = .ok (raw ++ [(c.key, c.taking word)]) := by
  obtain ⟨last, hrun, hfinish⟩ := walk_eq_ok_iff.mp hwalk
  obtain ⟨filled, hfills⟩ := (Walk.fills_start sig).of_run hrun
  obtain ⟨hmode, rfl⟩ : (∀ d index, last.mode ≠ .awaiting d index) ∧ last.values = raw := by
    unfold Walk.finish at hfinish
    split at hfinish
    · cases hfinish
    · rename_i hmode
      exact ⟨hmode, Except.ok.inj hfinish⟩
  obtain ⟨rest, hleft⟩ := exists_left hfills hnext
  obtain ⟨next, hstep, hvalues⟩ : ∃ next, Walk.step sig last word = .ok next ∧
      next.finish = .ok (last.values ++ [(c.key, c.taking word)]) := Walk.step_of_left hleft hmode hword
  exact walk_append_of_step hrun hstep hvalues

/-! ## What is missing as a whole -/

theorem objectionTo?_of_shared (h : ∀ e ∈ sig.present keys, e.exclusive = false) :
    sig.objectionTo? keys = (sig.firstMissing? keys).map .missing := by
  have hfilter : (sig.present keys).filter Declaration.exclusive = [] :=
    List.filter_eq_nil_iff.mpr fun e he => by simp [h e he]
  simp [objectionTo?, hfilter]

/-- With one exclusive argument there is an objection only to its not being alone. -/
theorem objectionTo?_of_exclusive (hc : c ∈ sig.present keys) (hexclusive : c.exclusive = true)
    (honly : ∀ e ∈ sig.present keys, e.exclusive = true → e = c) :
    sig.objectionTo? keys = none ∨ ∃ others, sig.objectionTo? keys = some (.notAlone c others) := by
  simp only [objectionTo?]
  cases hfilter : (sig.present keys).filter Declaration.exclusive with
  | nil =>
    have hmem : c ∈ (sig.present keys).filter Declaration.exclusive := List.mem_filter.mpr ⟨hc, hexclusive⟩
    rw [hfilter] at hmem
    cases hmem
  | cons e rest =>
    obtain ⟨he, heexclusive⟩ : e ∈ sig.present keys ∧ e.exclusive = true :=
      List.mem_filter.mp (hfilter ▸ List.mem_cons_self)
    obtain rfl := honly e he heexclusive
    by_cases hothers : 1 < (sig.present keys).length
    · exact .inr ⟨_, if_pos hothers⟩
    · exact .inl (if_neg hothers)

theorem shared_of_objectionTo?_missing (h : sig.objectionTo? keys = some (.missing d)) :
    (∀ e ∈ sig.present keys, e.exclusive = false) ∧ sig.firstMissing? keys = some d := by
  have hshared : ∀ e ∈ sig.present keys, e.exclusive = false := by
    intro e he
    by_contra hexclusive
    simp only [objectionTo?] at h
    split at h
    · rename_i hfilter
      have hmem := List.filter_eq_nil_iff.mp hfilter e he
      exact hexclusive (by simpa using hmem)
    · split at h <;> cases h
  rw [objectionTo?_of_shared hshared] at h
  exact ⟨hshared, by simpa using h⟩

/-- An argument that the values as a whole lack has no value. -/
theorem not_mem_of_objectionTo? (h : sig.objectionTo? keys = some fault) (hawaited : fault.awaited? = some d) :
    d.key ∉ keys := by
  simp only [objectionTo?] at h
  split at h
  · obtain ⟨e, hmissing, rfl⟩ := Option.map_eq_some_iff.mp h
    cases hawaited
    have hboth : d.required = true ∧ d.key ∉ keys := by simpa using List.find?_some hmissing
    exact hboth.2
  · split at h <;> cases h
    cases hawaited

/-- The first cardinal without a value is optional, unless it is the argument that is missing. -/
theorem required_of_nextCardinal? (hmissing : sig.firstMissing? keys = some d) (hd : d.isCardinal = true)
    (hnext : sig.nextCardinal? keys = some c) (hne : c ≠ d) : c.required = false := by
  obtain ⟨hdmissing, before, after, hsplit, hbefore⟩ := List.find?_eq_some_iff_append.mp hmissing
  obtain ⟨-, hdnew⟩ : d.required = true ∧ d.key ∉ keys := by simpa using hdmissing
  have hcards : sig.cardinals = before.filter Declaration.isCardinal ++
      d :: after.filter Declaration.isCardinal := by
    rw [cardinals, hsplit, List.filter_append, List.filter_cons_of_pos hd]
  rw [nextCardinal?, hcards, List.find?_append, List.find?_cons_of_pos (by simpa using hdnew)] at hnext
  cases hearlier : (before.filter Declaration.isCardinal).find? (fun e => e.key ∉ keys) with
  | none =>
    rw [hearlier] at hnext
    exact absurd (Option.some.inj hnext).symm hne
  | some e =>
    rw [hearlier] at hnext
    obtain rfl : e = c := Option.some.inj hnext
    have hnew : e.key ∉ keys := by simpa using List.find?_some hearlier
    have hmem := (List.mem_filter.mp (List.mem_of_find?_eq_some hearlier)).1
    simpa [hnew] using hbefore e hmem

/-- Further keys of arguments that are optional and not exclusive leave a missing argument missing. -/
theorem objectionTo?_snoc (h : sig.objectionTo? keys = some (.missing d)) (hc : c ∈ sig.declarations)
    (hshared : c.exclusive = false) (hoptional : c.required = false) :
    sig.objectionTo? (keys ++ [c.key]) = some (.missing d) := by
  obtain ⟨hplain, hmissing⟩ := shared_of_objectionTo?_missing h
  have hmore : ∀ e ∈ sig.present (keys ++ [c.key]), e.exclusive = false := by
    intro e he
    obtain ⟨hdeclared, hkey⟩ := eq_of_mem_present.mp he
    rcases List.mem_append.mp hkey with hkey | hkey
    · exact hplain e (eq_of_mem_present.mpr ⟨hdeclared, hkey⟩)
    · rwa [eq_of_key_eq hdeclared hc (List.mem_singleton.mp hkey)]
  have hstill : sig.firstMissing? (keys ++ [c.key]) = some d := by
    obtain ⟨hd, before, after, hsplit, hbefore⟩ := List.find?_eq_some_iff_append.mp hmissing
    obtain ⟨hrequired, hnew⟩ : d.required = true ∧ d.key ∉ keys := by simpa using hd
    have hother : d.key ≠ c.key := by
      intro hkey
      rw [eq_of_key_eq (by simp [hsplit]) hc hkey, hoptional] at hrequired
      cases hrequired
    refine List.find?_eq_some_iff_append.mpr
      ⟨by simp [hrequired, hnew, hother], before, after, hsplit, fun e he => ?_⟩
    have hpassed : e.required = false ∨ e.key ∈ keys := by simpa using hbefore e he
    rcases hpassed with hpassed | hpassed <;> simp [hpassed]
  rw [objectionTo?_of_shared hmore, hstill]
  rfl

/-! ## The argument that gets the next word -/

/-- Whether an argument is the one that a word after some words is for: the option that waits for its value, or the
first cardinal without one. -/
inductive IsNext (sig : Signature) (words : List Text) (d : Declaration) : Prop where
  | value {last : Walk} {index : Nat} (reads : Walk.run sig (.start sig) words = .ok last)
      (waits : last.mode = .awaiting d index) : IsNext sig words d
  | cardinal {raw : Values} (reads : sig.walk words = .ok raw)
      (first : sig.nextCardinal? (Assoc.keys raw) = some d) : IsNext sig words d

/-- Whether an argument receives a word after some words: the word is its value if the words can be read, and a fault
is not that the argument, or its value, is missing. -/
structure Receives (sig : Signature) (words : List Text) (word : Text) (d : Declaration) : Prop where
  bound : ∀ values, sig.parse (words ++ [word]) = .ok values → List.lookup d.key values = some (d.taking word)
  settled : ∀ fault, sig.parse (words ++ [word]) = .error fault → fault.awaited? ≠ some d

/-- Whether a word after some words is read as the value of an argument, or refused because the argument was given
before. -/
def Takes (sig : Signature) (words : List Text) (word : Text) (d : Declaration) : Prop :=
  (∃ raw, sig.walk (words ++ [word]) = .ok raw ∧ List.lookup d.key raw = some (d.taking word)) ∨
    ∃ index, sig.parse (words ++ [word]) = .error (.duplicated d index)

/-- Words that are read are refused only as a whole. -/
theorem parse_eq_error_iff_objectionTo? (hwalk : sig.walk words = .ok raw) :
    sig.parse words = .error fault ↔ sig.objectionTo? (Assoc.keys raw) = some fault := by
  rw [parse, hwalk]
  cases hobjection : sig.objectionTo? (Assoc.keys raw) <;> simp [hobjection]

theorem Takes.receives (hd : d ∈ sig.declarations) (h : sig.Takes words word d) : sig.Receives words word d := by
  rcases h with ⟨raw, hwalk, hlookup⟩ | ⟨index, hduplicated⟩
  · refine ⟨fun values h => ?_, fun fault h hawaited => ?_⟩
    · obtain ⟨found, hfound, -, rfl⟩ := parse_eq_ok_iff_walk.mp h
      obtain rfl := Except.ok.inj (hfound.symm.trans hwalk)
      rw [lookup_valuesOf_declarations hd, hlookup]
    · have hobjection := (parse_eq_error_iff_objectionTo? hwalk).mp h
      exact not_mem_of_objectionTo? hobjection hawaited (Assoc.mem_keys_iff.mpr ⟨_, hlookup⟩)
  · refine ⟨fun values h => ?_, fun fault h => ?_⟩
    · cases hduplicated.symm.trans h
    · cases hduplicated.symm.trans h
      exact nofun

theorem lookup_snoc (hnew : d.key ∉ Assoc.keys raw) :
    List.lookup d.key (raw ++ [(d.key, d.taking word)]) = some (d.taking word) := by
  rw [List.lookup_append, Assoc.lookup_eq_none_iff.mpr hnew]
  simp

theorem takes_of_waits {last : Walk} {index : Nat} (hrun : Walk.run sig (.start sig) words = .ok last)
    (hmode : last.mode = .awaiting d index) (hword : looksLikeSwitch word = false) :
    d ∈ sig.declarations ∧ sig.Takes words word d := by
  obtain ⟨filled, hfills⟩ := (Walk.fills_start sig).of_run hrun
  obtain ⟨hd, hswitch⟩ := mem_switches.mp (hfills.option d index hmode)
  refine ⟨hd, ?_⟩
  by_cases hnew : d.key ∈ last.keys
  · have hstep : Walk.step sig last word = .error (.duplicated d index) := by
      simp only [Walk.step, hmode, hword, Bool.false_eq_true, if_false]
      exact if_pos hnew
    have hfails := Walk.run_eq_error_iff.mpr ⟨words, word, [], last, rfl, hrun, hstep⟩
    exact .inr ⟨index, by simpa using parse_of_run_error hfails []⟩
  · have htaking : d.taking word = .text word := by
      rw [Declaration.taking, Declaration.isGreedy_of_switch hswitch, if_neg Bool.false_ne_true]
    obtain ⟨next, hstep, hvalues⟩ : ∃ next, Walk.step sig last word = .ok next ∧
        next.finish = .ok (last.values ++ [(d.key, .text word)]) :=
      ⟨_, (Walk.step_awaiting_eq_ok_iff hmode).mpr ⟨hword, hnew, rfl⟩, rfl⟩
    exact .inl ⟨_, htaking ▸ walk_append_of_step hrun hstep hvalues, lookup_snoc hnew⟩

theorem new_of_nextCardinal? (h : sig.nextCardinal? keys = some c) : c ∈ sig.declarations ∧ c.key ∉ keys :=
  ⟨(mem_cardinals.mp (List.mem_of_find?_eq_some h)).1, by simpa using List.find?_some h⟩

/-- A word is taken by the argument that it is for. -/
theorem IsNext.takes (h : sig.IsNext words d) (hword : looksLikeSwitch word = false) :
    d ∈ sig.declarations ∧ sig.Takes words word d := by
  cases h with
  | value hrun hmode => exact takes_of_waits hrun hmode hword
  | cardinal hwalk hnext =>
    obtain ⟨hd, hnew⟩ := new_of_nextCardinal? hnext
    exact ⟨hd, .inl ⟨_, walk_append_word hwalk hnext hword, lookup_snoc hnew⟩⟩

/-- An exclusive argument that the word is for is either alone or refused. -/
theorem parse_of_exclusive_cardinal (hwalk : sig.walk words = .ok raw)
    (hshared : ∀ e ∈ sig.present (Assoc.keys raw), e.exclusive = false)
    (hnext : sig.nextCardinal? (Assoc.keys raw) = some c) (hexclusive : c.exclusive = true)
    (hword : looksLikeSwitch word = false) :
    sig.parse (words ++ [word]) = .ok [(c.key, c.taking word)] ∨
      ∃ others, sig.parse (words ++ [word]) = .error (.notAlone c others) := by
  obtain ⟨hc, hnew⟩ := new_of_nextCardinal? hnext
  have hmore := walk_append_word hwalk hnext hword
  have hkeys : Assoc.keys (raw ++ [(c.key, c.taking word)]) = Assoc.keys raw ++ [c.key] := by simp [Assoc.keys]
  have honly : ∀ e ∈ sig.present (Assoc.keys raw ++ [c.key]), e.exclusive = true → e = c := by
    intro e he heexclusive
    obtain ⟨hdeclared, hkey⟩ := eq_of_mem_present.mp he
    rcases List.mem_append.mp hkey with hkey | hkey
    · rw [hshared e (eq_of_mem_present.mpr ⟨hdeclared, hkey⟩)] at heexclusive
      cases heexclusive
    · exact eq_of_key_eq hdeclared hc (List.mem_singleton.mp hkey)
  rcases objectionTo?_of_exclusive (eq_of_mem_present.mpr ⟨hc, by simp⟩) hexclusive honly with
    hnone | ⟨others, hothers⟩
  · have hparse := parse_eq_ok_iff_walk.mpr ⟨_, hmore, hkeys ▸ hnone, rfl⟩
    have hlookup : List.lookup c.key (valuesOf sig.declarations (raw ++ [(c.key, c.taking word)])) =
        some (c.taking word) := by
      rw [lookup_valuesOf_declarations hc, lookup_snoc hnew]
    rcases (spelling_of_parse hparse).1.complete with ⟨e, -, -, hone⟩ | ⟨hplain, -⟩
    · exact .inl (hparse.trans (congrArg _ (Assoc.eq_singleton hone hlookup)))
    · rw [hplain c hc (Assoc.mem_keys_iff.mpr ⟨_, hlookup⟩)] at hexclusive
      cases hexclusive
  · exact .inr ⟨others, (parse_eq_error_iff_objectionTo? hmore).mpr (hkeys ▸ hothers)⟩

theorem exists_nextCardinal? (h : sig.objectionTo? keys = some (.missing d)) (hd : d.isCardinal = true) :
    ∃ c, sig.nextCardinal? keys = some c := by
  have hmem := List.mem_of_find?_eq_some (shared_of_objectionTo?_missing h).2
  have hnew := not_mem_of_objectionTo? h rfl
  refine Option.isSome_iff_exists.mp (List.find?_isSome.mpr ⟨d, mem_cardinals.mpr ⟨hmem, hd⟩, ?_⟩)
  simpa using hnew

/-- Where an argument is missing and the next word is for another, the argument stays missing, unless the other is
exclusive. -/
theorem parse_of_other_cardinal (hwalk : sig.walk words = .ok raw)
    (hobjection : sig.objectionTo? (Assoc.keys raw) = some (.missing d)) (hd : d.isCardinal = true)
    (hnext : sig.nextCardinal? (Assoc.keys raw) = some c) (hne : c ≠ d) (hword : looksLikeSwitch word = false) :
    sig.parse (words ++ [word]) = .error (.missing d) ∨
      c.exclusive = true ∧ (sig.parse (words ++ [word]) = .ok [(c.key, c.taking word)] ∨
        ∃ others, sig.parse (words ++ [word]) = .error (.notAlone c others)) := by
  obtain ⟨hshared, hmissing⟩ := shared_of_objectionTo?_missing hobjection
  cases hexclusive : c.exclusive with
  | true => exact .inr ⟨rfl, parse_of_exclusive_cardinal hwalk hshared hnext hexclusive hword⟩
  | false =>
    have hoptional := required_of_nextCardinal? hmissing hd hnext hne
    have hmore := walk_append_word hwalk hnext hword
    have hstill := objectionTo?_snoc hobjection (new_of_nextCardinal? hnext).1 hexclusive hoptional
    refine .inl ((parse_eq_error_iff_objectionTo? hmore).mpr ?_)
    simpa [Assoc.keys] using hstill

/-! ## The contract -/

theorem kind_of_value (hawaited : fault.awaited? = some d) (h : fault ≠ .missing d) :
    fault.kind = .valueRequired := by
  cases fault <;> simp_all [ArgumentFault.awaited?, ArgumentFault.kind]

/-- An option that lacks its value either waits for it at the end of the words, or lacks it whatever follows. -/
theorem waits_or_stays (hparse : sig.parse words = .error fault) (hawaited : fault.awaited? = some d)
    (hvalue : fault ≠ .missing d) :
    (∃ last index, Walk.run sig (.start sig) words = .ok last ∧ last.mode = .awaiting d index) ∨
      ∀ more, sig.parse (words ++ more) = .error fault := by
  have hkind : fault.kind ∈ ArgumentFault.kindsOfWords := by
    rw [kind_of_value hawaited hvalue]
    decide
  rcases walk_eq_error_iff.mp (walk_of_parse_error hparse hkind) with hrun | ⟨last, hrun, hfinish⟩
  · exact .inr (parse_of_run_error hrun)
  · cases hmode : last.mode with
    | awaiting option index =>
      obtain rfl : fault = .valueMissing option index := by simpa [Walk.finish, hmode] using hfinish.symm
      obtain rfl : option = d := Option.some.inj hawaited
      exact .inl ⟨last, index, hrun, hmode⟩
    | _ => simp [Walk.finish, hmode] at hfinish

/-- An argument is missing only where all words were read. -/
theorem walk_of_missing (hparse : sig.parse words = .error (.missing d)) :
    ∃ raw, sig.walk words = .ok raw ∧ sig.objectionTo? (Assoc.keys raw) = some (.missing d) := by
  cases hwalk : sig.walk words with
  | ok raw => exact ⟨raw, rfl, (parse_eq_error_iff_objectionTo? hwalk).mp hparse⟩
  | error fault =>
    obtain rfl : fault = .missing d := by simpa [parse, hwalk] using hparse
    obtain ⟨front, word, rest, -, hfails⟩ := exists_failsAt hwalk
    cases hfails.blames with
    | switch opens switch => cases switch

/-- The argument that is missing, or whose value is, takes and receives the next word if that is for it.  Otherwise
nothing is changed by the word, unless it is for a cardinal that is exclusive. -/
theorem next_word (hparse : sig.parse words = .error fault) (hawaited : fault.awaited? = some d)
    (hcardinal : fault = .missing d → d.isCardinal = true) (hword : looksLikeSwitch word = false) :
    (sig.IsNext words d → sig.Takes words word d ∧ sig.Receives words word d) ∧
      (¬sig.IsNext words d → sig.parse (words ++ [word]) = .error fault ∨
        ∃ c, sig.IsNext words c ∧ c ≠ d ∧ c.exclusive = true ∧
          (sig.parse (words ++ [word]) = .ok [(c.key, c.taking word)] ∨
            ∃ others, sig.parse (words ++ [word]) = .error (.notAlone c others))) := by
  constructor
  · intro hnext
    obtain ⟨hd, htakes⟩ := hnext.takes hword
    exact ⟨htakes, htakes.receives hd⟩
  · intro hnot
    by_cases hmissing : fault = .missing d
    · subst hmissing
      have hd := hcardinal rfl
      obtain ⟨raw, hwalk, hobjection⟩ := walk_of_missing hparse
      obtain ⟨c, hnext⟩ := exists_nextCardinal? hobjection hd
      have hne : c ≠ d := by
        rintro rfl
        exact hnot (.cardinal hwalk hnext)
      rcases parse_of_other_cardinal hwalk hobjection hd hnext hne hword with hstays | ⟨hexclusive, houtcome⟩
      · exact .inl hstays
      · exact .inr ⟨c, .cardinal hwalk hnext, hne, hexclusive, houtcome⟩
    · rcases waits_or_stays hparse hawaited hmissing with ⟨last, index, hrun, hmode⟩ | hstays
      · exact absurd (.value hrun hmode) hnot
      · exact .inl (hstays [word])

theorem next_word_copying :
    copying.parse ["-v"] = .error (.missing ⟨.cardinal false, "source", true, false, none⟩) ∧
      looksLikeSwitch "here" = false ∧
      copying.Receives ["-v"] "here" ⟨.cardinal false, "source", true, false, none⟩ ∧
      copying.parse ["here", "--count"] = .error (.valueMissing ⟨.option "COUNT", "--count", false, false, none⟩ 2) ∧
      copying.Receives ["here", "--count"] "3" ⟨.option "COUNT", "--count", false, false, none⟩ := by
  have hmissing : copying.parse ["-v"] = .error (.missing ⟨.cardinal false, "source", true, false, none⟩) := by
    decide
  have hvalue : copying.parse ["here", "--count"] =
      .error (.valueMissing ⟨.option "COUNT", "--count", false, false, none⟩ 2) := by decide
  refine ⟨hmissing, by decide, ?_, hvalue, ?_⟩
  · exact ((next_word hmissing rfl (fun _ => rfl) (by decide)).1 (.cardinal rfl (by decide))).2
  · exact ((next_word hvalue rfl nofun (by decide)).1 (.value rfl rfl)).2

/-- The second argument of `[a] <b>`. -/
def secondArgument : Declaration :=
  ⟨.cardinal false, "b", true, false, none⟩

/-- The arguments that `[a] <b>` states. -/
def optionalFirst : Signature where
  prog := "x"
  declarations := [⟨.cardinal false, "a", false, false, none⟩, secondArgument]
  summary := .none
  description := .none
  infer := false
  wellMade := by decide

/-- A script with these arguments. -/
def optionalFirstScript : Script :=
  ⟨⟨.root, ["x"]⟩, Docs.ofLines [Text.lit "# Usage: \x7bcmd\x7d [a] <b>"]⟩

theorem signature_optionalFirstScript : optionalFirstScript.signature "x" false = .ok optionalFirst := by
  have hprog : Text.trim "x" = "x" := by decide
  have hnonempty : Text.trim "x" ≠ [] := by decide
  have hdeclarations : optionalFirstScript.declarations = optionalFirst.declarations := by decide +kernel
  obtain ⟨wellMade, hsignature⟩ := optionalFirstScript.signature_eq hnonempty false
  rw [hsignature, optionalFirst, Except.ok.injEq, mk.injEq]
  exact ⟨hprog, hdeclarations, by decide +kernel, by decide +kernel, rfl⟩

/-- An argument that is missing need not receive the next word. -/
theorem not_receives_optionalFirst :
    ¬∀ (script : Script) (prog : Text) (infer : Bool) (usage : Usage) (sig : Signature) (words : List Text)
      (word : Text) (fault : ArgumentFault) (d : Declaration),
        script.usage = some usage → script.signature prog infer = .ok sig →
        sig.parse words = .error fault → fault.awaited? = some d → (fault = .missing d → d.isCardinal = true) →
        word ≠ [] → word.head? ≠ some dash → sig.Receives words word d := by
  intro h
  have husage : optionalFirstScript.usage =
      some ⟨[⟨.positional "a", false, false⟩, ⟨.positional "b", true, false⟩], none⟩ := by decide +kernel
  have hparse : optionalFirst.parse [] = .error (.missing secondArgument) := by decide
  have hreceives := h optionalFirstScript "x" false _ optionalFirst [] "w" _ secondArgument husage
    signature_optionalFirstScript hparse rfl (fun _ => rfl) (by decide) (by decide)
  have hagain : optionalFirst.parse ["w"] = .error (.missing secondArgument) := by decide
  exact hreceives.settled _ hagain rfl

end Signature

end CommandTree
