import CommandTree.Signature.Parse
import Mathlib.Data.List.Nodup

/-!
# The switches of a signature

What validity and distinct keys give for finding declarations: a key names one declaration, a name names
one switch, and the name of a switch is either two dashes and an identifier or a dash and one letter.

`Signature.Names` says which switch a long name on a command line stands for.  Where names may be
shortened that is the only switch which the name starts, unless a switch has the name in full;
`Signature.findLong_eq_ok_iff` states that the search finds exactly this switch.
-/

namespace CommandTree

namespace Declaration

/-! ## The shape of names -/

/-- The name of a switch is two dashes and its key, an identifier, or a dash and its key, one letter. -/
theorem name_of_switch {d : Declaration} (hvalid : d.Valid) (hswitch : d.isCardinal = false) :
    (d.key.IsIdent ∧ d.name = terminator ++ d.key) ∨
      (∃ g, isFlagLetter g = true ∧ d.key = [g] ∧ d.name = [dash, g] ∧ d.isOption = false) := by
  have hlong : ∀ name : Text, isLongName name = true →
      ∃ ident : Text, ident.IsIdent ∧ name = terminator ++ ident := by
    intro name h
    unfold isLongName at h
    split at h
    · rename_i ident
      exact ⟨ident, of_decide_eq_true h, rfl⟩
    · simp at h
  have hname := hvalid.name
  obtain ⟨kind, name, required, exclusive, description⟩ := d
  cases kind with
  | cardinal greedy => simp [isCardinal] at hswitch
  | option metavar =>
    obtain ⟨ident, hident, rfl⟩ := hlong name hname
    exact .inl ⟨hident, rfl⟩
  | flag =>
    simp only [Kind.admits, Bool.or_eq_true] at hname
    rcases hname with hshort | hname
    · unfold isShortName at hshort
      split at hshort
      · rename_i g
        refine .inr ⟨g, hshort, ?_, rfl, rfl⟩
        have hg : g ≠ .char '-' := by
          rintro rfl
          exact absurd hshort (by decide)
        simp [key, hg]
      · simp at hshort
    · obtain ⟨ident, hident, rfl⟩ := hlong name hname
      have hkey : key ⟨.flag, terminator ++ ident, required, exclusive, description⟩ = ident := by
        cases ident with
        | nil => exact absurd hident id
        | cons g rest =>
          have hg : g ≠ .char '-' := by
            rintro rfl
            exact absurd hident.1 (by decide)
          simp [key, terminator, dash, hg]
      exact .inl ⟨hkey.symm ▸ hident, by rw [hkey]⟩

instance (d : Declaration) : Decidable d.Valid :=
  decidable_of_iff
    (d.kind.admits d.name = true ∧ d.kind.hasWord = true ∧ ¬(d.required = true ∧ d.exclusive = true) ∧
      ¬(d.kind.isGreedy = true ∧ d.exclusive = true))
    ⟨fun ⟨name, word, required, greedy⟩ => ⟨name, word, required, greedy⟩,
      fun h => ⟨h.name, h.word, h.notRequiredExclusive, h.notGreedyExclusive⟩⟩

/-- An identifier holds no equals sign. -/
theorem not_mem_ident {name : Text} (h : name.IsIdent) : Glyph.char '=' ∉ name := by
  intro hmem
  cases name with
  | nil => simp at hmem
  | cons g rest =>
    rcases List.mem_cons.mp hmem with rfl | hrest
    · exact absurd h.1 (by decide)
    · exact absurd (h.2 _ hrest) (by decide)

end Declaration

namespace Signature

variable {sig : Signature} {d e : Declaration}

instance (declarations : List Declaration) : Decidable (WellMade declarations) :=
  decidable_of_iff
    ((∀ d ∈ declarations, d.Valid) ∧ (declarations.map Declaration.key).Nodup ∧
      ∀ d ∈ (declarations.filter Declaration.isCardinal).dropLast, d.isGreedy = false)
    ⟨fun ⟨valid, distinct, greedyLast⟩ => ⟨valid, distinct, greedyLast⟩,
      fun h => ⟨h.valid, h.distinct, h.greedyLast⟩⟩

/-! ## Declarations by key and by name -/

theorem mem_switches : d ∈ sig.switches ↔ d ∈ sig.declarations ∧ d.isCardinal = false := by
  simp [switches]

theorem mem_cardinals : d ∈ sig.cardinals ↔ d ∈ sig.declarations ∧ d.isCardinal = true := by
  simp [cardinals]

/-- A key names one declaration. -/
theorem eq_of_key_eq (hd : d ∈ sig.declarations) (he : e ∈ sig.declarations) (h : d.key = e.key) :
    d = e :=
  List.inj_on_of_nodup_map sig.wellMade.distinct hd he h

/-- No switch has the key of a cardinal. -/
theorem key_ne_of_switch (hd : d ∈ sig.switches) (he : e ∈ sig.cardinals) : d.key ≠ e.key := by
  intro heq
  obtain ⟨hdmem, hswitch⟩ := mem_switches.mp hd
  obtain ⟨hemem, hcardinal⟩ := mem_cardinals.mp he
  rw [eq_of_key_eq hdmem hemem heq, hcardinal] at hswitch
  cases hswitch

theorem name_of_mem_switches (hd : d ∈ sig.switches) :
    (d.key.IsIdent ∧ d.name = terminator ++ d.key) ∨
      (∃ g, Declaration.isFlagLetter g = true ∧ d.key = [g] ∧ d.name = [dash, g] ∧
        d.isOption = false) := by
  obtain ⟨hmem, hswitch⟩ := mem_switches.mp hd
  exact Declaration.name_of_switch (sig.wellMade.valid d hmem) hswitch

/-- A switch whose name is a dash and its key has one letter. -/
theorem key_of_short (hd : d ∈ sig.switches) (hname : d.name = dash :: d.key) :
    ∃ g, Declaration.isFlagLetter g = true ∧ d.key = [g] := by
  rcases name_of_mem_switches hd with ⟨_, hlong⟩ | ⟨g, hg, hkey, -, -⟩
  · rw [hname] at hlong
    have hlen := congrArg List.length hlong
    simp [terminator] at hlen
  · exact ⟨g, hg, hkey⟩

/-- A cluster of short flags consists of letters, and of one at least for each flag. -/
theorem letters_of_cluster {flags : List Declaration}
    (hshort : ∀ d ∈ flags, d ∈ sig.switches ∧ d.name = dash :: d.key) :
    (flags.flatMap Declaration.key = [] → flags = []) ∧
      ∀ g ∈ flags.flatMap Declaration.key, Declaration.isFlagLetter g = true := by
  constructor
  · intro hempty
    refine List.eq_nil_iff_forall_not_mem.mpr fun d hd => ?_
    obtain ⟨g, -, hkey⟩ := key_of_short (hshort d hd).1 (hshort d hd).2
    have hnone := List.flatMap_eq_nil_iff.mp hempty d hd
    rw [hkey] at hnone
    cases hnone
  · intro g hg
    obtain ⟨d, hd, hgd⟩ := List.mem_flatMap.mp hg
    obtain ⟨letter, hletter, hkey⟩ := key_of_short (hshort d hd).1 (hshort d hd).2
    rw [hkey, List.mem_singleton] at hgd
    exact hgd ▸ hletter

/-- A switch with a short name is a flag, known by its letter. -/
theorem key_of_name {letter : Glyph} (hd : d ∈ sig.switches) (hname : d.name = [dash, letter]) :
    d.key = [letter] ∧ d.isOption = false := by
  rcases name_of_mem_switches hd with ⟨hident, hlong⟩ | ⟨g, -, hkey, hshort, hflag⟩
  · rw [hname] at hlong
    obtain ⟨-, hempty⟩ : letter = dash ∧ [] = d.key := by simpa [terminator] using hlong
    rw [← hempty] at hident
    exact absurd hident id
  · rw [hname] at hshort
    obtain rfl : letter = g := by simpa using hshort
    exact ⟨hkey, hflag⟩

/-- A name names one switch. -/
theorem eq_of_name_eq (hd : d ∈ sig.switches) (he : e ∈ sig.switches) (h : d.name = e.name) :
    d = e := by
  refine eq_of_key_eq (mem_switches.mp hd).1 (mem_switches.mp he).1 ?_
  rcases name_of_mem_switches hd with ⟨_, hdn⟩ | ⟨g, _, hdk, hdn, _⟩ <;>
    rcases name_of_mem_switches he with ⟨hei, hen⟩ | ⟨g', hg', hek, hen, _⟩
  · rw [hdn, hen] at h
    exact List.append_cancel_left h
  · -- a dash is no letter, so a long name is never a short one
    rw [hdn, hen] at h
    obtain ⟨rfl, -⟩ : dash = g' ∧ d.key = [] := by simpa [terminator] using h
    exact absurd hg' (by decide)
  · rw [hdn, hen] at h
    obtain ⟨-, hkey⟩ : g = dash ∧ [] = e.key := by simpa [terminator] using h
    rw [← hkey] at hei
    exact absurd hei id
  · rw [hdn, hen] at h
    obtain rfl : g = g' := by simpa using h
    rw [hdk, hek]

theorem switch?_eq_some_iff {name : Text} :
    sig.switch? name = some d ↔ d ∈ sig.switches ∧ d.name = name := by
  constructor
  · intro h
    exact ⟨List.mem_of_find?_eq_some h, by simpa using List.find?_some h⟩
  · rintro ⟨hd, rfl⟩
    cases hfind : sig.switch? d.name with
    | none =>
      have hnone := List.find?_eq_none.mp hfind d hd
      simp at hnone
    | some e =>
      have he := List.mem_of_find?_eq_some hfind
      have hname : e.name = d.name := by simpa using List.find?_some hfind
      rw [eq_of_name_eq he hd hname]

theorem switch?_eq_none_iff {name : Text} :
    sig.switch? name = none ↔ ∀ e ∈ sig.switches, e.name ≠ name := by
  simp [switch?]

theorem nodup_switch_names (sig : Signature) : (sig.switches.map Declaration.name).Nodup := by
  refine List.Nodup.map_on (fun d hd e he h => eq_of_name_eq hd he h) ?_
  exact (sig.wellMade.distinct.of_map _).filter _

/-! ## Long names -/

/-- The switch that a long name stands for, its dashes taken off: the one of that name or, where names
may be shortened and no switch has that name, the only one whose name starts with it. -/
def Names (sig : Signature) (name : Text) (d : Declaration) : Prop :=
  d ∈ sig.switches ∧
    (d.name = terminator ++ name ∨
      (sig.infer = true ∧ name ≠ [] ∧ (∀ e ∈ sig.switches, e.name ≠ terminator ++ name) ∧
        ∀ e ∈ sig.switches, terminator ++ name <+: e.name ↔ e = d))

theorem Names.prefix {name : Text} (h : sig.Names name d) : terminator ++ name <+: d.name := by
  obtain ⟨hd, hname | ⟨-, -, -, honly⟩⟩ := h
  · exact hname ▸ List.prefix_rfl
  · exact (honly d hd).mpr rfl

/-- Only a switch with a long name is stood for. -/
theorem Names.long {name : Text} (h : sig.Names name d) :
    d.key.IsIdent ∧ d.name = terminator ++ d.key := by
  rcases name_of_mem_switches h.1 with hlong | ⟨g, hg, -, hshort, -⟩
  · exact hlong
  · -- a short name would have to start with two dashes
    obtain ⟨tail, htail⟩ := h.prefix
    rw [hshort] at htail
    obtain ⟨rfl, -⟩ : dash = g ∧ name ++ tail = [] := by simpa [terminator] using htail
    exact absurd hg (by decide)

/-- What stands for a switch is a part of an identifier, and not empty. -/
theorem Names.clean {name : Text} (h : sig.Names name d) : name ≠ [] ∧ Glyph.char '=' ∉ name := by
  obtain ⟨hident, hlong⟩ := h.long
  obtain ⟨tail, htail⟩ := h.prefix
  rw [hlong, List.append_assoc] at htail
  have hkey : name ++ tail = d.key := List.append_cancel_left htail
  refine ⟨?_, fun hmem => Declaration.not_mem_ident hident ?_⟩
  · rintro rfl
    obtain ⟨-, hname | ⟨-, hne, -⟩⟩ := h
    · rw [hlong] at hname
      have hnil : d.key = [] := List.append_cancel_left hname
      rw [hnil] at hident
      exact hident
    · exact hne rfl
  · rw [← hkey]
    exact List.mem_append_left _ hmem

/-- A name stands for one switch. -/
theorem Names.unique {name : Text} (hd : sig.Names name d) (he : sig.Names name e) : d = e := by
  obtain ⟨hdmem, hdname | ⟨-, -, -, honly⟩⟩ := hd
  · obtain ⟨hemem, hename | ⟨-, -, hnone, -⟩⟩ := he
    · exact eq_of_name_eq hdmem hemem (hdname.trans hename.symm)
    · exact absurd hdname (hnone d hdmem)
  · exact ((honly e he.1).mp he.prefix).symm

theorem mem_completionsOf {name candidate : Text} :
    candidate ∈ sig.completionsOf name ↔
      (sig.infer = true ∧ name ≠ []) ∧
        ∃ e ∈ sig.switches, terminator ++ name <+: e.name ∧ e.name = candidate := by
  have hstarts : ∀ text : Text,
      Text.startsWith (terminator ++ name) text = true ↔ terminator ++ name <+: text := by
    intro text
    rw [Text.startsWith, Option.isSome_iff_exists]
    constructor
    · rintro ⟨rest, h⟩
      exact ⟨rest, (Text.after?_eq_some_iff.mp h).symm⟩
    · rintro ⟨rest, h⟩
      exact ⟨rest, Text.after?_eq_some_iff.mpr h.symm⟩
  unfold completionsOf
  split
  · rename_i hinfer
    simp only [List.mem_mergeSort, List.mem_filter, List.mem_map, hstarts]
    constructor
    · rintro ⟨⟨e, he, rfl⟩, hpre⟩
      exact ⟨hinfer, e, he, hpre, rfl⟩
    · rintro ⟨-, e, he, hpre, rfl⟩
      exact ⟨⟨e, he, rfl⟩, hpre⟩
  · rename_i hinfer
    simp [hinfer]

theorem nodup_completionsOf (sig : Signature) (name : Text) : (sig.completionsOf name).Nodup := by
  unfold completionsOf
  split
  · exact (List.mergeSort_perm _ _).nodup_iff.mpr ((nodup_switch_names sig).filter _)
  · exact List.nodup_nil

/-- Where no switch has a name in full, the name stands for a switch if that is its only completion. -/
theorem names_iff_completionsOf {name : Text} (hnone : ∀ e ∈ sig.switches, e.name ≠ terminator ++ name) :
    sig.Names name d ↔ d ∈ sig.switches ∧ sig.completionsOf name = [d.name] := by
  constructor
  · rintro ⟨hd, hname | ⟨hinfer, hne, -, honly⟩⟩
    · exact absurd hname (hnone d hd)
    refine ⟨hd, List.perm_singleton.mp ?_⟩
    refine (List.perm_ext_iff_of_nodup (nodup_completionsOf sig name)
      (List.nodup_singleton _)).mpr fun candidate => ?_
    rw [mem_completionsOf, List.mem_singleton]
    constructor
    · rintro ⟨-, e, he, hpre, rfl⟩
      rw [(honly e he).mp hpre]
    · rintro rfl
      exact ⟨⟨hinfer, hne⟩, d, hd, (honly d hd).mpr rfl, rfl⟩
  · rintro ⟨hd, hone⟩
    have hmem : ∀ candidate, candidate ∈ sig.completionsOf name ↔ candidate = d.name := by
      simp [hone]
    obtain ⟨⟨hinfer, hne⟩, -⟩ := mem_completionsOf.mp ((hmem d.name).mpr rfl)
    refine ⟨hd, .inr ⟨hinfer, hne, hnone, fun e he => ⟨fun hpre => ?_, ?_⟩⟩⟩
    · refine eq_of_name_eq he hd ((hmem e.name).mp ?_)
      exact mem_completionsOf.mpr ⟨⟨hinfer, hne⟩, e, he, hpre, rfl⟩
    · rintro rfl
      obtain ⟨-, e', he', hpre, hname⟩ := mem_completionsOf.mp ((hmem e.name).mpr rfl)
      exact hname ▸ hpre

/-- The search for a long name finds the switch that it stands for, and nothing else. -/
theorem findLong_eq_ok_iff {name : Text} {index : Nat} :
    sig.findLong name index = .ok d ↔ sig.Names name d := by
  simp only [findLong]
  cases hexact : sig.switch? (terminator ++ name) with
  | some e =>
    obtain ⟨he, hname⟩ := switch?_eq_some_iff.mp hexact
    have hnames : sig.Names name e := ⟨he, .inl hname⟩
    simp only [Except.ok.injEq]
    exact ⟨fun h => h ▸ hnames, fun h => hnames.unique h⟩
  | none =>
    have hnone := switch?_eq_none_iff.mp hexact
    rw [names_iff_completionsOf hnone]
    match hcomp : sig.completionsOf name with
    | [] => simp
    | only :: next :: more => simp
    | [only] =>
      obtain ⟨-, e, he, -, rfl⟩ := mem_completionsOf.mp (hcomp ▸ List.mem_singleton_self only)
      have hfound : sig.switch? e.name = some e := switch?_eq_some_iff.mpr ⟨he, rfl⟩
      simp only [hfound, Except.ok.injEq, List.cons.injEq, and_true]
      constructor
      · rintro rfl
        exact ⟨he, rfl⟩
      · rintro ⟨hd, hname⟩
        exact eq_of_name_eq he hd hname

end Signature

end CommandTree
