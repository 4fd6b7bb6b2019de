import CommandTree.Proofs.Signature.Reading

/-!
# Spellings of assignments

A layout spells an assignment if its pieces fit the signature and give each switch the value that it
has, in any order, and if its words are those of the cardinals in the order of these.  Words for
cardinals that look like switches stand behind the terminator.

`Signature.parse_line` is the contract of the reader: whatever the spelling of an admissible assignment,
reading it gives the assignment back, in the order of the declarations.  Conversely a line spells
whatever it is parsed to, and that is admissible (`Signature.spelling_of_parse`); `Signature.parse_sound`
says what this means for the values of every command line that is parsed.
-/

namespace CommandTree

namespace Layout

/-- Whether a layout spells an assignment.  Idle pieces may stand anywhere in the front. -/
structure Spells (layout : Layout) (sig : Signature) (values : Values) : Prop where
  fits : ∀ piece ∈ layout.front, piece.Fits sig
  /-- Every switch that has a value is given it once, and nothing else is given. -/
  entries : layout.entries.Perm (Signature.valuesOf sig.switches values)
  words : layout.words = sig.positional values
  stands : layout.Stands sig.cardinals

end Layout

namespace Signature

variable {sig : Signature} {layout : Layout} {values : Values}

/-! ## From assignments to layouts -/

theorem Admissible.nodup_keys (h : sig.Admissible values) : (Assoc.keys values).Nodup :=
  h.ordered.nodup sig.wellMade.distinct

theorem Admissible.valuesOf_declarations (h : sig.Admissible values) :
    valuesOf sig.declarations values = values :=
  valuesOf_eq_self sig.wellMade.distinct h.ordered

/-- The words of an admissible assignment are dealt out as the assignment says. -/
theorem Admissible.deal?_positional (h : sig.Admissible values) :
    deal? sig.cardinals (sig.positional values) = some (valuesOf sig.cardinals values) := by
  refine deal?_words sig.wellMade.greedyLast h.contiguous sig.nodup_cardinal_keys
    (fun d hd => (mem_cardinals.mp hd).2) fun d hd value hmem => ?_
  obtain ⟨e, -, hkey, hlookup⟩ := mem_valuesOf.mp hmem
  rw [hkey] at hlookup
  exact h.accepted d (mem_cardinals.mp hd).1 value
    ((Assoc.lookup_eq_some_iff_mem h.nodup_keys).mp hlookup)

/-- What a spelling gives to switches and what it deals out to cardinals make up the assignment. -/
theorem Admissible.perm_of_spells (h : sig.Admissible values) (hspells : layout.Spells sig values) :
    (layout.entries ++ valuesOf sig.cardinals values).Perm values := by
  have hall := (hspells.entries.append_right _).trans (valuesOf_declarations_perm sig values).symm
  rwa [h.valuesOf_declarations] at hall

/-- A spelling of an admissible assignment is read from the start on. -/
theorem Admissible.reads_of_spells (h : sig.Admissible values) (hspells : layout.Spells sig values) :
    layout.Reads sig sig.cardinals [] (valuesOf sig.cardinals values) where
  fits := hspells.fits
  stands := hspells.stands
  deals := by rw [hspells.words, h.deal?_positional]
  distinct := by
    have hnodup := ((h.perm_of_spells hspells).map Prod.fst).nodup_iff.mpr h.nodup_keys
    simpa [Assoc.keys] using hnodup

/-- A command line is parsed to what the walk over it gives, if nothing is wrong with that as a whole.
-/
theorem parse_eq_ok_iff_walk {words : List Text} :
    sig.parse words = .ok values ↔
      ∃ raw, sig.walk words = .ok raw ∧ sig.objectionTo? (Assoc.keys raw) = none ∧
        valuesOf sig.declarations raw = values := by
  unfold parse
  cases hwalk : sig.walk words with
  | error fault => simp
  | ok raw =>
    cases hobjection : sig.objectionTo? (Assoc.keys raw) <;> simp [hobjection, arrange_eq_valuesOf]

/-- Reading a spelling of an admissible assignment gives the assignment back, in the order of the
declarations. -/
theorem parse_line (h : sig.Admissible values) (hspells : layout.Spells sig values) :
    sig.parse layout.line = .ok values := by
  obtain ⟨raw, hwalk, hraw⟩ := walk_line (h.reads_of_spells hspells)
  have hperm : raw.Perm values := hraw.trans (h.perm_of_spells hspells)
  have hkeys : ∀ key, key ∈ Assoc.keys raw ↔ key ∈ Assoc.keys values := fun key =>
    (hperm.map Prod.fst).mem_iff
  have hraw_nodup : (Assoc.keys raw).Nodup := (hperm.map Prod.fst).nodup_iff.mpr h.nodup_keys
  refine parse_eq_ok_iff_walk.mpr ⟨raw, hwalk, ?_, ?_⟩
  · rw [objectionTo?_congr hkeys]
    exact (objectionTo?_eq_none_iff h.ordered).mpr h.complete
  · rw [valuesOf_of_perm hperm hraw_nodup, h.valuesOf_declarations]

/-- The signature of a command that copies: `copy [--count=COUNT] [-v] [-q] <source> [rest]...`. -/
def copying : Signature where
  prog := "copy"
  declarations :=
    [⟨.option "COUNT", "--count", false, false, none⟩, ⟨.flag, "-v", false, false, none⟩,
      ⟨.flag, "-q", false, false, none⟩, ⟨.cardinal false, "source", true, false, none⟩,
      ⟨.cardinal true, "rest", false, false, none⟩]
  summary := .none
  description := .none
  infer := false
  wellMade := by decide

theorem parse_line_copying :
    copying.parse ["-qv", "here", "--count", "-", "--", "-x", "there"] =
      .ok [("count", .text "-"), ("v", .on), ("q", .on), ("source", .text "here"),
        ("rest", .captured ["-x", "there"])] := by
  refine @parse_line copying
    { front := [.cluster [⟨.flag, "-q", false, false, none⟩, ⟨.flag, "-v", false, false, none⟩],
        .word "here", .separate ⟨.option "COUNT", "--count", false, false, none⟩ "count" "-"]
      terminated := true
      tail := ["-x", "there"] } _ ?_ ?_
  · refine ⟨by decide, ?_, by decide, .inr ⟨by decide, by decide⟩⟩
    intro d hd value hmem
    simp only [copying, List.mem_cons, Prod.mk.injEq, List.not_mem_nil, or_false] at hd hmem
    rcases hmem with ⟨hkey, rfl⟩ | ⟨hkey, rfl⟩ | ⟨hkey, rfl⟩ | ⟨hkey, rfl⟩ | ⟨hkey, rfl⟩ <;>
      rcases hd with rfl | rfl | rfl | rfl | rfl <;>
      first
        | exact absurd hkey (by decide)
        | exact trivial
        | exact List.cons_ne_nil _ _
  · refine ⟨?_, by decide, by decide, by decide, by decide⟩
    intro piece hpiece
    simp only [List.mem_cons, List.not_mem_nil, or_false] at hpiece
    rcases hpiece with rfl | rfl | rfl
    · exact ⟨by decide, by decide⟩
    · exact (by decide : looksLikeSwitch "here" = false)
    · exact ⟨⟨by decide, .inl (by decide)⟩, by decide, by decide⟩

/-! ## From layouts to assignments -/

section Reads

variable {dealt : Values} (h : layout.Reads sig sig.cardinals [] dealt)

include h

theorem nodup_keys_of_reads : (Assoc.keys (layout.entries ++ dealt)).Nodup := by
  simpa [Assoc.keys] using h.distinct

/-- What the switches are given is given to switches. -/
theorem given_of_reads :
    ∀ entry ∈ layout.entries, ∃ d ∈ sig.switches, d.key = entry.1 ∧ d.Accepts entry.2 := by
  intro entry hentry
  obtain ⟨piece, hpiece, hentry⟩ := List.mem_flatMap.mp hentry
  exact (h.fits piece hpiece).given entry hentry

/-- What the cardinals are given is given to cardinals. -/
theorem dealt_of_reads : ∀ entry ∈ dealt, ∃ d ∈ sig.cardinals, d.key = entry.1 ∧ d.Accepts entry.2 :=
  accepts_of_deal? (fun _ hd => (mem_cardinals.mp hd).2) h.deals

theorem valuesOf_switches_of_reads :
    (valuesOf sig.switches (layout.entries ++ dealt)).Perm layout.entries := by
  have hothers : ∀ d ∈ sig.switches, d.key ∉ Assoc.keys dealt := by
    intro d hd hmem
    obtain ⟨entry, hentry, hkey⟩ := List.mem_map.mp hmem
    obtain ⟨e, he, hekey, -⟩ := dealt_of_reads h entry hentry
    exact key_ne_of_switch hd he (hkey.symm.trans hekey.symm)
  rw [valuesOf_append_left hothers]
  refine valuesOf_perm_self (nodup_switch_keys sig) ?_ fun key hkey => ?_
  · exact (List.nodup_append.mp (by simpa [Assoc.keys] using h.distinct)).1
  · obtain ⟨entry, hentry, rfl⟩ := List.mem_map.mp hkey
    obtain ⟨d, hd, hdkey, -⟩ := given_of_reads h entry hentry
    exact List.mem_map.mpr ⟨d, hd, hdkey⟩

theorem valuesOf_cardinals_of_reads : valuesOf sig.cardinals (layout.entries ++ dealt) = dealt := by
  have hothers : ∀ d ∈ sig.cardinals, d.key ∉ Assoc.keys layout.entries := by
    intro d hd hmem
    obtain ⟨entry, hentry, hkey⟩ := List.mem_map.mp hmem
    obtain ⟨e, he, hekey, -⟩ := given_of_reads h entry hentry
    exact key_ne_of_switch he hd (hekey.trans hkey)
  rw [valuesOf_append_right hothers]
  exact valuesOf_eq_self (nodup_cardinal_keys sig) (keys_of_deal? h.deals).sublist

/-- Arranged in the order of the declarations, what was read loses nothing. -/
theorem valuesOf_declarations_of_reads :
    (valuesOf sig.declarations (layout.entries ++ dealt)).Perm (layout.entries ++ dealt) := by
  refine (valuesOf_declarations_perm sig _).trans ?_
  rw [valuesOf_cardinals_of_reads h]
  exact (valuesOf_switches_of_reads h).append_right dealt

/-- The assignment that a layout spells. -/
theorem spells_of_reads : layout.Spells sig (valuesOf sig.declarations (layout.entries ++ dealt)) := by
  have hperm := valuesOf_declarations_of_reads h
  have hnodup := (hperm.map Prod.fst).nodup_iff.mpr (nodup_keys_of_reads h)
  refine ⟨h.fits, ?_, ?_, h.stands⟩
  · rw [valuesOf_of_perm hperm hnodup]
    exact (valuesOf_switches_of_reads h).symm
  · rw [positional, valuesOf_of_perm hperm hnodup, valuesOf_cardinals_of_reads h]
    exact (words_of_deal? h.deals).symm

/-- The assignment that a layout spells is admissible where it is complete. -/
theorem admissible_of_reads
    (hcomplete : sig.Complete (Assoc.keys (valuesOf sig.declarations (layout.entries ++ dealt)))) :
    sig.Admissible (valuesOf sig.declarations (layout.entries ++ dealt)) := by
  have hperm := valuesOf_declarations_of_reads h
  have hnodup := (hperm.map Prod.fst).nodup_iff.mpr (nodup_keys_of_reads h)
  refine ⟨keys_valuesOf_sublist _ _, fun d hd value hmem => ?_, ?_, hcomplete⟩
  · -- a value was accepted by the declaration of its key, and there is only one
    rcases List.mem_append.mp (hperm.mem_iff.mp hmem) with hmem | hmem
    · obtain ⟨e, he, hkey, haccepts⟩ := given_of_reads h _ hmem
      rwa [eq_of_key_eq (mem_switches.mp he).1 hd hkey] at haccepts
    · obtain ⟨e, he, hkey, haccepts⟩ := dealt_of_reads h _ hmem
      rwa [eq_of_key_eq (mem_cardinals.mp he).1 hd hkey] at haccepts
  · rw [valuesOf_of_perm hperm hnodup, valuesOf_cardinals_of_reads h]
    exact keys_of_deal? h.deals

end Reads

/-- What a command line is parsed to is admissible, and the line spells it. -/
theorem spelling_of_parse {words : List Text} (h : sig.parse words = .ok values) :
    sig.Admissible values ∧ ∃ layout : Layout, layout.line = words ∧ layout.Spells sig values := by
  obtain ⟨raw, hwalk, hobjection, rfl⟩ := parse_eq_ok_iff_walk.mp h
  obtain ⟨layout, dealt, rfl, hreads, hraw⟩ := exists_layout_of_walk hwalk
  have hnodup : (Assoc.keys raw).Nodup := (hraw.map Prod.fst).nodup_iff.mpr (nodup_keys_of_reads hreads)
  rw [valuesOf_of_perm hraw hnodup]
  refine ⟨admissible_of_reads hreads ?_, layout, rfl, spells_of_reads hreads⟩
  refine (objectionTo?_eq_none_iff (keys_valuesOf_sublist _ _)).mp
    (hobjection ▸ objectionTo?_congr fun key => ?_)
  exact ((valuesOf_declarations_of_reads hreads).trans hraw.symm |>.map Prod.fst).mem_iff

/-! ## What is parsed -/

/-- Where a cardinal has a value, so have those that are declared before it. -/
theorem Admissible.mem_keys_of_earlier (h : sig.Admissible values) {earlier : List Declaration}
    {d e : Declaration} (hd : earlier ++ [d] <+: sig.cardinals) (hkey : d.key ∈ Assoc.keys values)
    (he : e ∈ earlier) : e.key ∈ Assoc.keys values := by
  have hcardinal : d ∈ sig.cardinals := hd.subset (by simp)
  obtain ⟨value, hvalue⟩ := Assoc.mem_keys_iff.mp hkey
  have hmem : d.key ∈ Assoc.keys (valuesOf sig.cardinals values) :=
    List.mem_map.mpr ⟨(d.key, value), mem_valuesOf.mpr ⟨d, hcardinal, rfl, hvalue⟩, rfl⟩
  have hearlier : earlier.map Declaration.key <+: sig.cardinals.map Declaration.key :=
    ((List.prefix_append earlier [d]).trans hd).map Declaration.key
  -- of two prefixes one is a prefix of the other
  rcases List.prefix_or_prefix_of_prefix hearlier h.contiguous with hle | hle
  · have hfound : e.key ∈ Assoc.keys (valuesOf sig.cardinals values) :=
      hle.subset (List.mem_map_of_mem he)
    obtain ⟨entry, hentry, hname⟩ := List.mem_map.mp hfound
    obtain ⟨c, -, hc, hlookup⟩ := mem_valuesOf.mp hentry
    have hsame : c.key = e.key := hc.trans hname
    exact Assoc.mem_keys_iff.mpr ⟨entry.2, hsame ▸ hlookup⟩
  · -- the key of `d` would be that of an earlier cardinal
    exfalso
    have hnodup : ((earlier ++ [d]).map Declaration.key).Nodup :=
      (hd.map Declaration.key).sublist.nodup (nodup_cardinal_keys sig)
    rw [List.map_append, List.nodup_append] at hnodup
    exact hnodup.2.2 _ (hle.subset hmem) d.key (by simp) rfl

/-- The values of a command line that is parsed are those of declared arguments, each once, in the order of
the declarations and of the kind that the argument accepts.  No cardinal is passed over, and either one
exclusive argument stands alone or there is none and no required argument is missing. -/
theorem parse_sound {words : List Text} (h : sig.parse words = .ok values) :
    (Assoc.keys values).Sublist (sig.declarations.map Declaration.key) ∧
      (Assoc.keys values).Nodup ∧
      (∀ entry ∈ values, ∃ d ∈ sig.declarations, d.key = entry.1 ∧ d.Accepts entry.2) ∧
      (∀ earlier d, earlier ++ [d] <+: sig.cardinals → d.key ∈ Assoc.keys values →
        ∀ e ∈ earlier, e.key ∈ Assoc.keys values) ∧
      sig.Complete (Assoc.keys values) := by
  obtain ⟨hadmissible, -⟩ := spelling_of_parse h
  refine ⟨hadmissible.ordered, hadmissible.nodup_keys, ?_,
    fun _ _ hd hkey _ he => hadmissible.mem_keys_of_earlier hd hkey he, hadmissible.complete⟩
  intro entry hentry
  have hdeclared : entry.1 ∈ sig.declarations.map Declaration.key :=
    hadmissible.ordered.subset (List.mem_map_of_mem hentry)
  obtain ⟨d, hd, hkey⟩ := List.mem_map.mp hdeclared
  have hmem : (d.key, entry.2) ∈ values := by rwa [hkey]
  exact ⟨d, hd, hkey, hadmissible.accepted d hd entry.2 hmem⟩

theorem parse_sound_copying :
    let values : Values := [("count", .text "-2"), ("v", .on), ("source", .text "there"),
      ("rest", .captured ["-x", "--"])]
    copying.parse ["there", "-v", "--count=-2", "--", "-x", "--"] = .ok values ∧
      (Assoc.keys values).Sublist (copying.declarations.map Declaration.key) ∧
      (Assoc.keys values).Nodup ∧
      (∀ entry ∈ values, ∃ d ∈ copying.declarations, d.key = entry.1 ∧ d.Accepts entry.2) ∧
      Text.lit "source" ∈ Assoc.keys values ∧ copying.Complete (Assoc.keys values) := by
  intro values
  have hparse : copying.parse ["there", "-v", "--count=-2", "--", "-x", "--"] = .ok values := by decide
  obtain ⟨hordered, hdistinct, haccepted, hearlier, hcomplete⟩ := parse_sound hparse
  have hcardinals : [⟨.cardinal false, "source", true, false, none⟩] ++
      [⟨.cardinal true, "rest", false, false, none⟩] <+: copying.cardinals := List.prefix_rfl
  have hsource := hearlier _ _ hcardinals (by decide) _ (List.mem_singleton_self _)
  exact ⟨hparse, hordered, hdistinct, haccepted, hsource, hcomplete⟩

end Signature

end CommandTree
