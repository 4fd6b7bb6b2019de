import CommandTree.Signature.Parse
import Mathlib.Data.List.Nodup
import Mathlib.Data.List.Perm.Basic

/-!
# Assignments

An assignment gives values to some of the arguments of a signature.  `Signature.Admissible` says which
assignments a command line can state: the keys are declared and stand in the order of the declarations,
every value is of the kind that its argument accepts, the cardinals that have a value are the first
ones, and either one exclusive argument stands alone or no exclusive argument is there and no required
one is missing.

The words of the cardinals are dealt out in order (`Signature.deal?`): one word to each cardinal, and
all words from its own on to a greedy one.  `Signature.deal?_words` and `Signature.words_of_deal?` state
that dealing out is the inverse of writing down the words of the cardinals that have a value.

`Signature.objectionTo?_eq_none_iff` states what the last check of a command line establishes.
-/

namespace CommandTree

namespace Assoc

variable {κ α : Type} [BEq κ] [LawfulBEq κ] {table other : Assoc κ α}

/-! ## Tables without repeated keys -/

/-- Where no key is repeated, reading a table finds each of its entries. -/
theorem lookup_eq_some_iff_mem (h : (keys table).Nodup) {key : κ} {value : α} :
    List.lookup key table = some value ↔ (key, value) ∈ table := by
  induction table with
  | nil => simp
  | cons entry rest ih =>
    obtain ⟨k, v⟩ := entry
    obtain ⟨hnew, hrest⟩ : k ∉ keys rest ∧ (keys rest).Nodup := by simpa [keys] using h
    by_cases hk : key = k
    · subst hk
      have habsent : (key, value) ∉ rest := fun hmem =>
        hnew (List.mem_map.mpr ⟨(key, value), hmem, rfl⟩)
      simp [habsent, eq_comm]
    · simp [List.lookup_cons, beq_false_of_ne hk, hk, ih hrest]

/-- A key has a value exactly if it is one of the keys. -/
theorem mem_keys_iff {key : κ} : key ∈ keys table ↔ ∃ value, List.lookup key table = some value := by
  rw [← Option.isSome_iff_exists, List.lookup_isSome_iff, keys, List.mem_map]
  constructor
  · rintro ⟨entry, hmem, rfl⟩
    exact ⟨entry, hmem, BEq.rfl⟩
  · rintro ⟨entry, hmem, heq⟩
    exact ⟨entry, hmem, (eq_of_beq heq).symm⟩

theorem lookup_eq_none_iff {key : κ} : List.lookup key table = none ↔ key ∉ keys table := by
  rw [mem_keys_iff, Option.eq_none_iff_forall_ne_some, not_exists]

/-- The order of a table without repeated keys does not matter for reading it. -/
theorem lookup_of_perm (hperm : table.Perm other) (h : (keys table).Nodup) (key : κ) :
    List.lookup key table = List.lookup key other := by
  have hother : (keys other).Nodup := (hperm.map Prod.fst).nodup_iff.mp h
  apply Option.ext
  intro value
  rw [lookup_eq_some_iff_mem h, lookup_eq_some_iff_mem hother]
  exact hperm.mem_iff

end Assoc

/-- The texts that a value holds, in order; a flag that is on holds none. -/
def Value.words : Value → List Text
  | on => []
  | text t => [t]
  | captured ts => ts

@[simp] theorem Value.words_text (t : Text) : (Value.text t).words = [t] := rfl

@[simp] theorem Value.words_captured (ts : List Text) : (Value.captured ts).words = ts := rfl

/-- Whether a value is of the kind that an argument has: a flag is on, a greedy cardinal captures at
least one text, and any other argument has a text. -/
def Declaration.Accepts (d : Declaration) (value : Value) : Prop :=
  match d.kind, value with
  | .flag, .on => True
  | .option _, .text _ => True
  | .cardinal false, .text _ => True
  | .cardinal true, .captured ts => ts ≠ []
  | _, _ => False

theorem Declaration.accepts_greedy_iff {d : Declaration} {value : Value} (h : d.isGreedy = true) :
    d.Accepts value ↔ ∃ t ts, value = .captured (t :: ts) := by
  have hkind : d.kind = .cardinal true := by
    cases hk : d.kind <;> simp_all [Declaration.isGreedy]
  cases value with
  | captured ts => cases ts <;> simp [Declaration.Accepts, hkind]
  | _ => simp [Declaration.Accepts, hkind]

theorem Declaration.accepts_plain_iff {d : Declaration} {value : Value} (hcardinal : d.isCardinal = true)
    (h : d.isGreedy = false) : d.Accepts value ↔ ∃ t, value = .text t := by
  have hkind : d.kind = .cardinal false := by
    cases hk : d.kind <;> simp_all [Declaration.isGreedy, Declaration.isCardinal]
  cases value <;> simp [Declaration.Accepts, hkind]

theorem Declaration.accepts_option_iff {d : Declaration} {value : Value} (h : d.isOption = true) :
    d.Accepts value ↔ ∃ t, value = .text t := by
  obtain ⟨metavar, hkind⟩ : ∃ metavar, d.kind = .option metavar := by
    cases hk : d.kind <;> simp_all [Declaration.isOption]
  cases value <;> simp [Declaration.Accepts, hkind]

theorem Declaration.accepts_flag_iff {d : Declaration} {value : Value} (hswitch : d.isCardinal = false)
    (h : d.isOption = false) : d.Accepts value ↔ value = .on := by
  have hkind : d.kind = .flag := by
    cases hk : d.kind <;> simp_all [Declaration.isOption, Declaration.isCardinal]
  cases value <;> simp [Declaration.Accepts, hkind]

namespace Signature

variable {sig : Signature} {ds : List Declaration} {values : Values}

/-! ## The values of some declarations -/

/-- The values of some declarations, in the order of these. -/
def valuesOf (ds : List Declaration) (values : Values) : Values :=
  ds.filterMap fun d => (List.lookup d.key values).map fun value => (d.key, value)

/-- The words of the cardinals that have a value, in order. -/
def positional (sig : Signature) (values : Values) : List Text :=
  (valuesOf sig.cardinals values).flatMap fun entry => entry.2.words

theorem mem_valuesOf {entry : Text × Value} :
    entry ∈ valuesOf ds values ↔
      ∃ d ∈ ds, d.key = entry.1 ∧ List.lookup d.key values = some entry.2 := by
  obtain ⟨key, value⟩ := entry
  simp only [valuesOf, List.mem_filterMap, Option.map_eq_some_iff, Prod.mk.injEq]
  constructor
  · rintro ⟨d, hd, v, hv, hkey, rfl⟩
    exact ⟨d, hd, hkey, hv⟩
  · rintro ⟨d, hd, hkey, hv⟩
    exact ⟨d, hd, value, hv, hkey, rfl⟩

theorem keys_valuesOf_sublist (ds : List Declaration) (values : Values) :
    (Assoc.keys (valuesOf ds values)).Sublist (ds.map Declaration.key) := by
  induction ds with
  | nil => simp [valuesOf, Assoc.keys]
  | cons d ds ih =>
    cases hlookup : List.lookup d.key values with
    | none =>
      have hskip : valuesOf (d :: ds) values = valuesOf ds values := by simp [valuesOf, hlookup]
      exact hskip ▸ ih.trans (List.sublist_cons_self _ _)
    | some value => simpa [valuesOf, hlookup, Assoc.keys] using ih

/-- Values that are there in the order of the declarations are arranged already. -/
theorem valuesOf_eq_self (hnodup : (ds.map Declaration.key).Nodup)
    (h : (Assoc.keys values).Sublist (ds.map Declaration.key)) : valuesOf ds values = values := by
  induction ds generalizing values with
  | nil =>
    have : values = [] := by simpa [Assoc.keys] using h
    simp [this, valuesOf]
  | cons d ds ih =>
    obtain ⟨hnew, hrest⟩ := List.nodup_cons.mp hnodup
    cases values with
    | nil => simp [valuesOf]
    | cons entry rest =>
      obtain ⟨key, value⟩ := entry
      by_cases hkey : key = d.key
      · subst hkey
        have hsub : (Assoc.keys rest).Sublist (ds.map Declaration.key) :=
          List.cons_sublist_cons.mp h
        -- no later declaration has the key that was met, so it may be left out
        have hskip : valuesOf ds ((d.key, value) :: rest) = valuesOf ds rest := by
          refine List.filterMap_congr fun e he => ?_
          have hne : e.key ≠ d.key := fun heq => hnew (heq ▸ List.mem_map_of_mem he)
          simp [List.lookup_cons, beq_false_of_ne hne]
        calc
          valuesOf (d :: ds) ((d.key, value) :: rest)
              = (d.key, value) :: valuesOf ds ((d.key, value) :: rest) := by simp [valuesOf]
          _ = (d.key, value) :: rest := by rw [hskip, ih hrest hsub]
      · have hsub : (Assoc.keys ((key, value) :: rest)).Sublist (ds.map Declaration.key) := by
          refine (List.sublist_cons_iff.mp h).resolve_right ?_
          rintro ⟨_, heq, -⟩
          exact hkey (List.cons.inj heq).1
        have hnone : List.lookup d.key ((key, value) :: rest) = none :=
          Assoc.lookup_eq_none_iff.mpr fun hmem => hnew (hsub.subset hmem)
        have hskip : valuesOf (d :: ds) ((key, value) :: rest) = valuesOf ds ((key, value) :: rest) := by
          simp only [valuesOf, List.filterMap_cons, hnone, Option.map_none]
        rw [hskip, ih hrest hsub]

/-- Only the entries of a table without repeated keys count, not their order. -/
theorem valuesOf_of_perm {others : Values} (hperm : values.Perm others)
    (hnodup : (Assoc.keys values).Nodup) : valuesOf ds values = valuesOf ds others :=
  List.filterMap_congr fun d _ => by rw [Assoc.lookup_of_perm hperm hnodup]

/-- Arranging values of declared keys loses none. -/
theorem valuesOf_perm_self (hds : (ds.map Declaration.key).Nodup)
    (hnodup : (Assoc.keys values).Nodup)
    (hkeys : ∀ key ∈ Assoc.keys values, key ∈ ds.map Declaration.key) :
    (valuesOf ds values).Perm values := by
  have hleft : (Assoc.keys (valuesOf ds values)).Nodup :=
    (keys_valuesOf_sublist ds values).nodup hds
  refine (List.perm_ext_iff_of_nodup hleft.of_map hnodup.of_map).mpr fun entry => ?_
  rw [mem_valuesOf]
  constructor
  · rintro ⟨d, -, hkey, hlookup⟩
    rw [hkey] at hlookup
    exact (Assoc.lookup_eq_some_iff_mem hnodup).mp hlookup
  · intro hmem
    obtain ⟨d, hd, hkey⟩ := List.mem_map.mp (hkeys entry.1 (List.mem_map_of_mem hmem))
    exact ⟨d, hd, hkey, hkey ▸ (Assoc.lookup_eq_some_iff_mem hnodup).mpr hmem⟩

/-- Values of other declarations do not count. -/
theorem valuesOf_append_left {others : Values} (h : ∀ d ∈ ds, d.key ∉ Assoc.keys others) :
    valuesOf ds (values ++ others) = valuesOf ds values := by
  refine List.filterMap_congr fun d hd => ?_
  rw [List.lookup_append, Assoc.lookup_eq_none_iff.mpr (h d hd), Option.or_none]

/-- Values of other declarations do not count. -/
theorem valuesOf_append_right {others : Values} (h : ∀ d ∈ ds, d.key ∉ Assoc.keys others) :
    valuesOf ds (others ++ values) = valuesOf ds values := by
  refine List.filterMap_congr fun d hd => ?_
  rw [List.lookup_append, Assoc.lookup_eq_none_iff.mpr (h d hd), Option.none_or]

theorem arrange_eq_valuesOf (sig : Signature) (values : Values) :
    sig.arrange values = valuesOf sig.declarations values := rfl

/-- The values of all declarations are those of the switches and those of the cardinals. -/
theorem valuesOf_declarations_perm (sig : Signature) (values : Values) :
    (valuesOf sig.declarations values).Perm
      (valuesOf sig.switches values ++ valuesOf sig.cardinals values) := by
  have hsplit : sig.declarations.Perm (sig.switches ++ sig.cardinals) := by
    refine (List.filter_append_perm Declaration.isCardinal sig.declarations).symm.trans ?_
    exact List.perm_append_comm
  rw [valuesOf, valuesOf, valuesOf, ← List.filterMap_append]
  exact hsplit.filterMap _

/-! ## Dealing out words -/

/-- Words for cardinals in order: one for each, and all from its own on for a greedy one.  There is no
result if a word is left over. -/
def deal? : List Declaration → List Text → Option Values
  | _, [] => some []
  | [], _ :: _ => none
  | d :: ds, word :: words =>
    if d.isGreedy then some [(d.key, .captured (word :: words))]
    else (deal? ds words).map fun values => (d.key, .text word) :: values

@[simp] theorem deal?_nil (ds : List Declaration) : deal? ds [] = some [] := by
  cases ds <;> rfl

theorem deal?_plain {d : Declaration} (h : d.isGreedy = false) (word : Text) (words : List Text) :
    deal? (d :: ds) (word :: words) =
      (deal? ds words).map fun values => (d.key, .text word) :: values := by
  simp [deal?, h]

theorem deal?_greedy {d : Declaration} (h : d.isGreedy = true) (word : Text) (words : List Text) :
    deal? (d :: ds) (word :: words) = some [(d.key, .captured (word :: words))] := by
  simp [deal?, h]

/-- The words that were dealt out are found in the values. -/
theorem words_of_deal? {words : List Text} (h : deal? ds words = some values) :
    (values.flatMap fun entry => entry.2.words) = words := by
  induction ds generalizing words values with
  | nil =>
    cases words with
    | nil =>
      cases h
      rfl
    | cons word words => cases h
  | cons d ds ih =>
    cases words with
    | nil =>
      cases h
      rfl
    | cons word words =>
      cases hg : d.isGreedy with
      | true =>
        rw [deal?_greedy hg] at h
        cases h
        simp
      | false =>
        rw [deal?_plain hg, Option.map_eq_some_iff] at h
        obtain ⟨rest, hrest, rfl⟩ := h
        simp [ih hrest]

/-- Words go to the first cardinals. -/
theorem keys_of_deal? {words : List Text} (h : deal? ds words = some values) :
    Assoc.keys values <+: ds.map Declaration.key := by
  induction ds generalizing words values with
  | nil =>
    cases words with
    | nil =>
      cases h
      exact List.nil_prefix
    | cons word words => cases h
  | cons d ds ih =>
    cases words with
    | nil =>
      cases h
      exact List.nil_prefix
    | cons word words =>
      cases hg : d.isGreedy with
      | true =>
        rw [deal?_greedy hg] at h
        cases h
        exact ⟨ds.map Declaration.key, rfl⟩
      | false =>
        rw [deal?_plain hg, Option.map_eq_some_iff] at h
        obtain ⟨rest, hrest, rfl⟩ := h
        exact List.prefix_cons_inj _ |>.mpr (ih hrest)

/-- Each cardinal is given what it accepts. -/
theorem accepts_of_deal? {words : List Text} (hds : ∀ d ∈ ds, d.isCardinal = true)
    (h : deal? ds words = some values) :
    ∀ entry ∈ values, ∃ d ∈ ds, d.key = entry.1 ∧ d.Accepts entry.2 := by
  induction ds generalizing words values with
  | nil =>
    cases words with
    | nil =>
      cases h
      simp
    | cons word words => cases h
  | cons d ds ih =>
    cases words with
    | nil =>
      cases h
      simp
    | cons word words =>
      cases hg : d.isGreedy with
      | true =>
        rw [deal?_greedy hg] at h
        cases h
        simp [Declaration.accepts_greedy_iff hg]
      | false =>
        rw [deal?_plain hg, Option.map_eq_some_iff] at h
        obtain ⟨rest, hrest, rfl⟩ := h
        intro entry hmem
        rcases List.mem_cons.mp hmem with rfl | hmem
        · exact ⟨d, by simp, rfl, (Declaration.accepts_plain_iff (hds d (by simp)) hg).mpr ⟨word, rfl⟩⟩
        · obtain ⟨e, he, hkey, haccepts⟩ :=
            ih (fun e he => hds e (List.mem_cons_of_mem _ he)) hrest entry hmem
          exact ⟨e, List.mem_cons_of_mem _ he, hkey, haccepts⟩

/-- Dealing out the words of values that the first cardinals accept gives these values back. -/
theorem deal?_words (hlast : ∀ d ∈ ds.dropLast, d.isGreedy = false)
    (hkeys : Assoc.keys values <+: ds.map Declaration.key) (hds : (ds.map Declaration.key).Nodup)
    (hkinds : ∀ d ∈ ds, d.isCardinal = true)
    (haccepts : ∀ d ∈ ds, ∀ value, (d.key, value) ∈ values → d.Accepts value) :
    deal? ds (values.flatMap fun entry => entry.2.words) = some values := by
  induction ds generalizing values with
  | nil =>
    have : values = [] := by simpa [Assoc.keys] using hkeys
    rw [this]
    rfl
  | cons d ds ih =>
    cases values with
    | nil => rfl
    | cons entry rest =>
      obtain ⟨key, value⟩ := entry
      obtain ⟨rfl, hrest⟩ : key = d.key ∧ Assoc.keys rest <+: ds.map Declaration.key := by
        simpa [Assoc.keys, List.cons_prefix_cons] using hkeys
      obtain ⟨hnew, hnodup⟩ := List.nodup_cons.mp hds
      have hvalue := haccepts d (by simp) value (by simp)
      cases hg : d.isGreedy with
      | true =>
        -- a greedy cardinal is the last one, so no value follows
        have hnil : ds = [] := by
          by_contra hne
          have := hlast d (by simp [List.dropLast_cons_of_ne_nil hne])
          rw [hg] at this
          cases this
        subst hnil
        have hdone : rest = [] := by simpa [Assoc.keys] using hrest
        subst hdone
        obtain ⟨t, ts, rfl⟩ := (Declaration.accepts_greedy_iff hg).mp hvalue
        simp [deal?_greedy hg]
      | false =>
        obtain ⟨t, rfl⟩ := (Declaration.accepts_plain_iff (hkinds d (by simp)) hg).mp hvalue
        have hplain : ∀ e ∈ ds.dropLast, e.isGreedy = false := by
          intro e he
          refine hlast e ?_
          cases ds with
          | nil => simp at he
          | cons next more => simpa using .inr he
        have htail := ih hplain hrest hnodup (fun e he => hkinds e (List.mem_cons_of_mem _ he))
          fun e he v hv => haccepts e (List.mem_cons_of_mem _ he) v (List.mem_cons_of_mem _ hv)
        simp [deal?_plain hg, htail]

/-! ## Admissible assignments -/

/-- The keys are those of one exclusive argument, or no exclusive argument is among them and no required
one is missing. -/
def Complete (sig : Signature) (keys : List Text) : Prop :=
  (∃ d ∈ sig.declarations, d.exclusive = true ∧ keys = [d.key]) ∨
    ((∀ d ∈ sig.declarations, d.key ∈ keys → d.exclusive = false) ∧
      ∀ d ∈ sig.declarations, d.required = true → d.key ∈ keys)

/-- An assignment that a command line can state. -/
structure Admissible (sig : Signature) (values : Values) : Prop where
  /-- The keys are declared and stand in the order of the declarations. -/
  ordered : (Assoc.keys values).Sublist (sig.declarations.map Declaration.key)
  /-- Every value is of the kind that its argument has. -/
  accepted : ∀ d ∈ sig.declarations, ∀ value, (d.key, value) ∈ values → d.Accepts value
  /-- No cardinal has a value unless all before it have one. -/
  contiguous : Assoc.keys (valuesOf sig.cardinals values) <+: sig.cardinals.map Declaration.key
  /-- One exclusive argument is alone, or there is none and nothing required is missing. -/
  complete : sig.Complete (Assoc.keys values)

theorem nodup_cardinal_keys (sig : Signature) : (sig.cardinals.map Declaration.key).Nodup :=
  (List.filter_sublist.map Declaration.key).nodup sig.wellMade.distinct

theorem nodup_switch_keys (sig : Signature) : (sig.switches.map Declaration.key).Nodup :=
  (List.filter_sublist.map Declaration.key).nodup sig.wellMade.distinct

/-- Whether values are complete depends on which keys are there, not on their order. -/
theorem objectionTo?_congr {keys others : List Text} (h : ∀ key, key ∈ keys ↔ key ∈ others) :
    sig.objectionTo? keys = sig.objectionTo? others := by
  have hpresent : sig.present keys = sig.present others := by simp [present, h]
  have hmissing : sig.firstMissing? keys = sig.firstMissing? others := by simp [firstMissing?, h]
  simp only [objectionTo?, hpresent, hmissing]

/-- The declarations of keys that stand in the order of the declarations. -/
theorem keys_present {keys : List Text} (h : keys.Sublist (sig.declarations.map Declaration.key)) :
    (sig.present keys).map Declaration.key = keys := by
  have hfilter : (sig.present keys).map Declaration.key =
      (sig.declarations.map Declaration.key).filter (fun key => key ∈ keys) := by
    rw [present, List.filter_map]
    rfl
  rw [hfilter]
  have hsub : keys.Sublist ((sig.declarations.map Declaration.key).filter fun key => key ∈ keys) := by
    have := h.filter fun key => key ∈ keys
    rwa [List.filter_eq_self.mpr (by simp)] at this
  refine (hsub.eq_of_length_le ?_).symm
  have hnodup := sig.wellMade.distinct.filter fun key => key ∈ keys
  have hsubset : (sig.declarations.map Declaration.key).filter (fun key => key ∈ keys) ⊆ keys :=
    fun key hkey => by simpa using (List.mem_filter.mp hkey).2
  exact (List.subperm_of_subset hnodup hsubset).length_le

theorem eq_of_mem_present {keys : List Text} {d : Declaration} :
    d ∈ sig.present keys ↔ d ∈ sig.declarations ∧ d.key ∈ keys := by
  simp [present]

/-- The check of the values as a whole passes exactly where they are complete. -/
theorem objectionTo?_eq_none_iff {keys : List Text}
    (h : keys.Sublist (sig.declarations.map Declaration.key)) :
    sig.objectionTo? keys = none ↔ sig.Complete keys := by
  have hkeys := keys_present h
  simp only [objectionTo?, Complete]
  cases hexclusive : (sig.present keys).filter Declaration.exclusive with
  | nil =>
    have hnone : ∀ d ∈ sig.declarations, d.key ∈ keys → d.exclusive = false := by
      intro d hd hkey
      have := List.filter_eq_nil_iff.mp hexclusive d (eq_of_mem_present.mpr ⟨hd, hkey⟩)
      simpa using this
    have hmissing : (sig.firstMissing? keys).map ArgumentFault.missing = none ↔
        ∀ d ∈ sig.declarations, d.required = true → d.key ∈ keys := by
      simp [firstMissing?]
    simp only [hmissing]
    refine ⟨fun hall => .inr ⟨hnone, hall⟩, ?_⟩
    rintro (⟨d, hd, hex, rfl⟩ | ⟨-, hall⟩)
    · rw [hnone d hd (List.mem_singleton_self _)] at hex
      cases hex
    · exact hall
  | cons d more =>
    have hd : d ∈ sig.present keys ∧ d.exclusive = true := by
      rw [← List.mem_filter, hexclusive]
      exact List.mem_cons_self
    obtain ⟨hdecl, hdkey⟩ := eq_of_mem_present.mp hd.1
    have hsome : ¬∀ d ∈ sig.declarations, d.key ∈ keys → d.exclusive = false := fun hall => by
      rw [hall d hdecl hdkey] at hd
      cases hd.2
    have halone : (sig.present keys).length ≤ 1 ↔
        ∃ d ∈ sig.declarations, d.exclusive = true ∧ keys = [d.key] := by
      rw [← List.length_map (f := Declaration.key), hkeys]
      constructor
      · intro hlen
        obtain ⟨key, rfl⟩ := List.length_eq_one_iff.mp
          (Nat.le_antisymm hlen (List.length_pos_of_mem hdkey))
        exact ⟨d, hdecl, hd.2, by rw [List.mem_singleton.mp hdkey]⟩
      · rintro ⟨e, -, -, rfl⟩
        simp
    simp only [hsome, false_and, or_false, ← halone]
    split <;> simp <;> omega

end Signature

end CommandTree
