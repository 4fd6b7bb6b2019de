import CommandTree.Annotation
import CommandTree.Proofs.Signature.Steps

/-!
# The line of values can be read back

A script receives the values of its arguments as one line of keys with quoted values.  Scripts trust
that line, whatever the values hold: spaces, double quotes, backslashes, or what looks like a further
entry.

`Values.unquote?` reads a quoted value and `Values.readEntry?` a key with its value; each returns what
follows.  That they undo the writing whatever follows (`unquote?_enclose`, `readEntry?_writeEntry`) is
why no two lists of entries are written alike (`write_injective`).  A key must hold no space for this,
and the key of an argument holds none (`IsKey.space_not_mem`).

`Values.line_decodable` is the contract of the line: it determines the keys and the flattened values, and
it is refused exactly where a value holds a stray byte, with the first such key.
-/

namespace CommandTree

namespace Values

/-- The glyph around a value. -/
def quote : Glyph := .char '"'

/-- The glyph that takes its meaning from the next one. -/
def backslash : Glyph := .char '\\'

/-- The glyph between a key and its value, and between entries. -/
def space : Glyph := .char ' '

/-- The key of an argument: an identifier, or one letter. -/
def IsKey (key : Text) : Prop :=
  key.IsIdent ∨ ∃ g : Glyph, key = [g] ∧ Declaration.isFlagLetter g = true

theorem IsKey.space_not_mem {key : Text} (h : IsKey key) : space ∉ key := by
  rcases h with hident | ⟨g, rfl, hletter⟩
  · cases key with
    | nil => exact absurd hident id
    | cons g rest =>
      obtain ⟨hfirst, hrest⟩ := hident
      intro hmem
      rcases List.mem_cons.mp hmem with rfl | hmem
      · exact absurd hfirst (by decide)
      · exact absurd (hrest _ hmem) (by decide)
  · intro hmem
    rw [← List.mem_singleton.mp hmem] at hletter
    exact absurd hletter (by decide)

/-! ## Reading an entry -/

/-- The value after an opening quote, and what follows the closing one. -/
def unquote? : Text → Option (Text × Text)
  | [] => none
  | [g] => if g = quote then some ([], []) else none
  | g :: h :: rest =>
    if g = quote then some ([], h :: rest)
    else if g = backslash then (unquote? rest).map fun read => (h :: read.1, read.2)
    else (unquote? (h :: rest)).map fun read => (g :: read.1, read.2)

/-- A key with its value, and what follows them. -/
def readEntry? (line : Text) : Option ((Text × Text) × Text) :=
  match line.cutAt space with
  | (key, some (g :: rest)) =>
    if g = quote then (unquote? rest).map fun read => ((key, read.1), read.2) else none
  | _ => none

theorem unquote?_quote (rest : Text) : unquote? (quote :: rest) = some ([], rest) := by
  cases rest <;> simp [unquote?]

/-- A glyph is read back from its escape. -/
theorem unquote?_escape (g : Glyph) {h : Glyph} {rest : Text} :
    unquote? (escape g ++ h :: rest) =
      (unquote? (h :: rest)).map fun read => (g :: read.1, read.2) := by
  unfold escape
  split
  · simp [unquote?, quote, backslash]
  · rename_i hplain
    obtain ⟨hbackslash, hquote⟩ := not_or.mp hplain
    simp [unquote?, quote, backslash, hbackslash, hquote]

/-- A quoted value is read back whatever follows it. -/
theorem unquote?_enclose (value rest : Text) :
    unquote? (value.flatMap escape ++ quote :: rest) = some (value, rest) := by
  induction value with
  | nil => exact unquote?_quote rest
  | cons g value ih =>
    -- the escapes that follow, with the closing quote, are not empty
    obtain ⟨h, more, hmore⟩ : ∃ h more, value.flatMap escape ++ quote :: rest = h :: more :=
      List.exists_cons_of_ne_nil (by simp)
    rw [List.flatMap_cons, List.append_assoc, hmore, unquote?_escape, ← hmore, ih]
    rfl

/-- An entry is read back whatever follows it. -/
theorem readEntry?_writeEntry {key : Text} (hkey : space ∉ key) (value rest : Text) :
    readEntry? (writeEntry key value ++ rest) = some ((key, value), rest) := by
  have hline : writeEntry key value ++ rest =
      key ++ space :: quote :: (value.flatMap escape ++ quote :: rest) := by
    simp [writeEntry, enclose, space, quote, Text.lit]
  rw [hline, readEntry?, Text.cutAt_append hkey]
  simp [unquote?_enclose]

/-! ## Lines of entries -/

/-- What is written for the entries after the first. -/
def writeMore (entries : List (Text × Text)) : Text :=
  entries.flatMap fun entry => space :: writeEntry entry.1 entry.2

theorem write_cons (entry : Text × Text) (entries : List (Text × Text)) :
    write (entry :: entries) = writeEntry entry.1 entry.2 ++ writeMore entries := by
  rw [write, List.map_cons, Text.join_cons, List.flatMap_map]
  rfl

theorem writeMore_injective {a b : List (Text × Text)} (ha : ∀ entry ∈ a, space ∉ entry.1)
    (hb : ∀ entry ∈ b, space ∉ entry.1) (h : writeMore a = writeMore b) : a = b := by
  induction a generalizing b with
  | nil =>
    cases b with
    | nil => rfl
    | cons entry b => simp [writeMore] at h
  | cons entry a ih =>
    cases b with
    | nil => simp [writeMore] at h
    | cons other b =>
      have hlines : writeEntry entry.1 entry.2 ++ writeMore a =
          writeEntry other.1 other.2 ++ writeMore b := by
        simpa [writeMore] using h
      have hread := congrArg readEntry? hlines
      rw [readEntry?_writeEntry (ha entry (by simp)), readEntry?_writeEntry (hb other (by simp))] at hread
      obtain ⟨hentry, hmore⟩ := Prod.mk.inj (Option.some.inj hread)
      rw [show entry = other from hentry, ih (fun e he => ha e (List.mem_cons_of_mem _ he))
        (fun e he => hb e (List.mem_cons_of_mem _ he)) hmore]

/-- No two lists of entries are written alike. -/
theorem write_injective {a b : List (Text × Text)} (ha : ∀ entry ∈ a, space ∉ entry.1)
    (hb : ∀ entry ∈ b, space ∉ entry.1) (h : write a = write b) : a = b := by
  have hempty : ∀ (entry : Text × Text) (entries : List (Text × Text)),
      write (entry :: entries) ≠ write [] := by
    intro entry entries
    rw [write_cons]
    simp [write, writeEntry, enclose, Text.join]
  cases a with
  | nil =>
    cases b with
    | nil => rfl
    | cons entry b => exact absurd h.symm (hempty entry b)
  | cons entry a =>
    cases b with
    | nil => exact absurd h (hempty entry a)
    | cons other b =>
      -- one more space before both lines makes them the rests of longer ones
      refine writeMore_injective ha hb ?_
      rw [write_cons, write_cons] at h
      simpa [writeMore] using h

/-! ## Values -/

/-- The values with their keys as data, as a line is made of them. -/
def keyed (values : Values) : List (Datum × Datum) :=
  values.data.map fun entry => (.text entry.1, entry.2)

theorem line_keyed (values : Values) :
    line values.keyed =
      values.serialize.mapError fun key => .cause (.unencodableValue (.text key)) := by
  rw [line, keyed, serializeData_data]
  cases values.serialize <;> rfl

theorem line_keyed_eq_ok_iff {values : Values} {text : Text} :
    line values.keyed = .ok text ↔ values.firstUnencodable? = none ∧ write values.flattened = text := by
  rw [line_keyed, serialize]
  cases values.firstUnencodable? <;> simp [Except.mapError]

theorem firstUnencodable?_eq_some_iff {values : Values} {key : Text} :
    values.firstUnencodable? = some key ↔
      ∃ before value after, values = before ++ (key, value) :: after ∧
        value.flatten.isEncodable = false ∧ ∀ entry ∈ before, entry.2.flatten.isEncodable = true := by
  induction values with
  | nil => simp [firstUnencodable?, flattened]
  | cons entry values ih =>
    cases hentry : entry.2.flatten.isEncodable with
    | false =>
      have hfirst : firstUnencodable? (entry :: values) = some entry.1 := by
        simp [firstUnencodable?, flattened, hentry]
      rw [hfirst]
      constructor
      · intro hkey
        obtain rfl := Option.some.inj hkey
        exact ⟨[], entry.2, values, rfl, hentry, by simp⟩
      · rintro ⟨before, value, after, hvalues, -, hbefore⟩
        cases before with
        | nil => rw [(List.cons.inj hvalues).1]
        | cons first before =>
          rw [(List.cons.inj hvalues).1, hbefore first (by simp)] at hentry
          cases hentry
    | true =>
      have hfirst : firstUnencodable? (entry :: values) = firstUnencodable? values := by
        simp [firstUnencodable?, flattened, hentry]
      rw [hfirst, ih]
      constructor
      · rintro ⟨before, value, after, rfl, hvalue, hbefore⟩
        exact ⟨entry :: before, value, after, rfl, hvalue, by simpa [hentry] using hbefore⟩
      · rintro ⟨before, value, after, hvalues, hvalue, hbefore⟩
        cases before with
        | nil =>
          rw [(List.cons.inj hvalues).1] at hentry
          rw [hentry] at hvalue
          cases hvalue
        | cons first before =>
          exact ⟨before, value, after, (List.cons.inj hvalues).2, hvalue,
            fun e he => hbefore e (List.mem_cons_of_mem _ he)⟩

theorem line_keyed_eq_error_iff {values : Values} {failure : Failure} :
    line values.keyed = .error failure ↔
      ∃ key, values.firstUnencodable? = some key ∧ failure = .cause (.unencodableValue (.text key)) := by
  rw [line_keyed, serialize]
  cases values.firstUnencodable? <;> simp [Except.mapError, eq_comm]

theorem space_not_mem_flattened {values : Values} (h : ∀ key ∈ Assoc.keys values, IsKey key) :
    ∀ entry ∈ values.flattened, space ∉ entry.1 := by
  intro entry hentry
  obtain ⟨original, horiginal, rfl⟩ := List.mem_map.mp hentry
  exact (h original.1 (List.mem_map_of_mem horiginal)).space_not_mem

/-- Two assignments that give the same line have the same keys in the same order, with the same values
once these are flattened.  There is no line exactly where some value holds a stray byte; the fault names
the first such key. -/
theorem line_decodable {a b : Values} (ha : ∀ key ∈ Assoc.keys a, IsKey key)
    (hb : ∀ key ∈ Assoc.keys b, IsKey key) :
    (∀ text, line a.keyed = .ok text → line b.keyed = .ok text → a.flattened = b.flattened) ∧
      ∀ failure, line a.keyed = .error failure ↔
        ∃ before key value after, a = before ++ (key, value) :: after ∧
          (∃ g ∈ value.flatten, g.isStray = true) ∧
          (∀ entry ∈ before, ∀ g ∈ entry.2.flatten, g.isStray = false) ∧
          failure = .cause (.unencodableValue (.text key)) := by
  have hencodable : ∀ text : Text, text.isEncodable = true ↔ ∀ g ∈ text, g.isStray = false := by
    intro text
    simp [Text.isEncodable]
  have hnot : ∀ text : Text, text.isEncodable = false ↔ ∃ g ∈ text, g.isStray = true := by
    intro text
    simp [Text.isEncodable]
  refine ⟨fun text hline hother => ?_, fun failure => ?_⟩
  · obtain ⟨-, hwrite⟩ := line_keyed_eq_ok_iff.mp hline
    obtain ⟨-, hwriteOther⟩ := line_keyed_eq_ok_iff.mp hother
    exact write_injective (space_not_mem_flattened ha) (space_not_mem_flattened hb)
      (hwrite.trans hwriteOther.symm)
  · rw [line_keyed_eq_error_iff]
    constructor
    · rintro ⟨key, hfirst, rfl⟩
      obtain ⟨before, value, after, hsplit, hvalue, hbefore⟩ := firstUnencodable?_eq_some_iff.mp hfirst
      exact ⟨before, key, value, after, hsplit, (hnot _).mp hvalue,
        fun entry hentry => (hencodable _).mp (hbefore entry hentry), rfl⟩
    · rintro ⟨before, key, value, after, hsplit, hvalue, hbefore, rfl⟩
      exact ⟨key, firstUnencodable?_eq_some_iff.mpr ⟨before, value, after, hsplit, (hnot _).mpr hvalue,
        fun entry hentry => (hencodable _).mpr (hbefore entry hentry)⟩, rfl⟩

/-- A flag that is on and two captured words are written like the texts that they flatten to, and a value
that looks like the start of a further entry is not taken for one. -/
theorem line_decodable_lookalike :
    flattened [("v", .on), ("rest", .captured ["a\" n \"", "\\"])] =
        flattened [("v", .text "true"), ("rest", .text "a\" n \" \\")] ∧
      line (keyed [("v", .on), ("n", .text [.char 'x', .stray 105]), ("m", .text [.stray 1])]) =
        .error (.cause (.unencodableValue (.text "n"))) := by
  have hletter : IsKey "v" := .inr ⟨.char 'v', rfl, by decide⟩
  have hident : ∀ key : Text, key.IsIdent → IsKey key := fun _ h => .inl h
  constructor
  · refine (line_decodable ?_ ?_).1 "v \"true\" rest \"a\\\" n \\\" \\\\\"" rfl rfl
    · simpa [Assoc.keys] using ⟨hletter, hident "rest" (by decide)⟩
    · simpa [Assoc.keys] using ⟨hletter, hident "rest" (by decide)⟩
  · refine ((line_decodable (b := []) ?_ (by simp [Assoc.keys])).2 _).mpr
      ⟨[("v", .on)], "n", .text [.char 'x', .stray 105], [("m", .text [.stray 1])], rfl, by decide,
        by decide, rfl⟩
    simpa [Assoc.keys] using ⟨hletter, hident "n" (by decide), hident "m" (by decide)⟩

end Values

end CommandTree
