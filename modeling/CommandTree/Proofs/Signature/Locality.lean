import CommandTree.Fault.Cause
import CommandTree.Proofs.Signature.Spelling

/-!
# Faults of single words

Most faults of a command line are found at a word.  Such a fault reports the index of the word, and no
later word has a say in it, with one exception: an option without an inline value is judged together with
the word after it, or with there being none.

Two facts about steps carry this.  A fault of a step blames the word just read, unless an option waits for
its value (`Walk.blames_of_step`); and an option waits only right after its own word
(`Walk.awaiting_of_run`), which is then the word that is blamed.  `Signature.exists_failsAt` finds from
them the words that decide a fault, for every walk that fails.

`Signature.parse_fault_local` is the contract.
-/

namespace CommandTree

namespace ArgumentFault

variable {fault : ArgumentFault}

/-! ## The place of a fault -/

/-- The kinds of faults that are found at a word; the other two are about the words as a whole. -/
def kindsOfWords : List Fault.Kind :=
  [.unknownSwitch, .ambiguousSwitch, .duplicatedSwitch, .flagAssignment, .valueRequired,
    .unexpectedCardinal]

/-- The faults that are about a switch in the word of some index. -/
inductive IsOfSwitch (index : Nat) : ArgumentFault → Prop where
  | unknownLong (input : Text) (suggestions : List Text) :
      IsOfSwitch index (.unknownLong input index suggestions)
  | unknownShort (input : Text) : IsOfSwitch index (.unknownShort input index)
  | ambiguous (input : Text) (candidates : List Text) : IsOfSwitch index (.ambiguous input index candidates)
  | duplicated (d : Declaration) : IsOfSwitch index (.duplicated d index)
  | assigned (d : Declaration) : IsOfSwitch index (.assigned d index)
  | valueMissing (d : Declaration) : IsOfSwitch index (.valueMissing d index)
  | valueEmpty (d : Declaration) : IsOfSwitch index (.valueEmpty d index)

/-- A fault about a switch reports the index of its word. -/
theorem IsOfSwitch.reported {index : Nat} (h : IsOfSwitch index fault) :
    ∃ input, place input index <+: fault.context := by
  cases h with
  | unknownShort input => exact ⟨.text input, List.prefix_rfl⟩
  | _ => exact ⟨_, List.prefix_append _ _⟩

theorem IsOfSwitch.kind_ne {index : Nat} (h : IsOfSwitch index fault) :
    fault.kind ≠ .unexpectedCardinal := by
  cases h <;> simp [kind]

/-- What a fault may say of a word and its index: no cardinal is left for the word, or it opens with a dash
and a switch in it is refused. -/
inductive Blames (word : Text) (index : Nat) : ArgumentFault → Prop where
  | unexpected : Blames word index (.unexpected (.text word) index)
  | switch {fault : ArgumentFault} (opens : word.head? = some dash) (switch : IsOfSwitch index fault) :
      Blames word index fault

end ArgumentFault

open ArgumentFault (kindsOfWords IsOfSwitch Blames place)

namespace Signature

variable {sig : Signature} {fault : ArgumentFault}

/-- What is wrong with values as a whole is not found at a word. -/
theorem kind_of_objectionTo? {keys : List Text} (h : sig.objectionTo? keys = some fault) :
    fault.kind ∉ kindsOfWords := by
  simp only [objectionTo?] at h
  split at h
  · obtain ⟨d, -, rfl⟩ := Option.map_eq_some_iff.mp h
    simp [kindsOfWords, ArgumentFault.kind]
  · split at h
    · cases h
      simp [kindsOfWords, ArgumentFault.kind]
    · cases h

theorem isOfSwitch_of_findLong {name : Text} {index : Nat} (h : sig.findLong name index = .error fault) :
    IsOfSwitch index fault := by
  simp only [findLong] at h
  split at h
  · cases h
  split at h
  · split at h
    · cases h
    · cases h
      exact .unknownLong _ _
  · cases h
    exact .unknownLong _ _
  · cases h
    exact .ambiguous _ _

end Signature

namespace Walk

variable {sig : Signature} {walk next last : Walk} {word : Text} {words : List Text}
  {fault : ArgumentFault} {d : Declaration} {index : Nat}

/-! ## Faults of steps -/

theorem record_error {value : Value} (h : walk.record d value index = .error fault) :
    fault = .duplicated d index := by
  unfold record at h
  split at h
  · cases h
    rfl
  · cases h

theorem isOfSwitch_of_takeLong {body : Text} (h : takeLong sig walk body = .error fault) :
    IsOfSwitch walk.read fault := by
  simp only [takeLong] at h
  split at h
  · rename_i hfind
    cases h
    exact Signature.isOfSwitch_of_findLong hfind
  split at h
  · split at h
    · cases h
    · cases h
      exact .valueEmpty _
    · rw [record_error h]
      exact .duplicated _
  · split at h
    · cases h
      exact .assigned _
    · rw [record_error h]
      exact .duplicated _

theorem isOfSwitch_of_takeLetters {assigned : Bool} {letters : Text}
    (h : takeLetters sig assigned walk letters = .error fault) : IsOfSwitch walk.read fault := by
  induction letters generalizing walk with
  | nil => cases h
  | cons letter rest ih =>
    simp only [takeLetters] at h
    split at h
    · cases h
      exact .unknownShort _
    split at h
    · cases h
      exact .assigned _
    split at h
    · rename_i hrecord
      cases h
      rw [record_error hrecord]
      exact .duplicated _
    · -- a letter that is recorded leaves the index as it is
      rename_i hrecord
      obtain ⟨-, rfl⟩ := record_eq_ok_iff.mp hrecord
      have hrest := ih h
      exact hrest

theorem takeWord_error (h : walk.takeWord word = .error fault) :
    fault = .unexpected (.text word) walk.read := by
  unfold takeWord at h
  split at h
  · cases h
    rfl
  · split at h <;> cases h

/-- Where a switch may stand, a fault blames the word. -/
theorem blames_of_takeFree (h : takeFree sig walk word = .error fault) :
    Blames word walk.read fault := by
  rcases word_shape word with ⟨body, rfl⟩ | ⟨g, rest, hg, rfl⟩ | hword
  · by_cases hbody : body = []
    · subst hbody
      rw [List.append_nil, takeFree_terminator] at h
      cases h
    · rw [takeFree_long hbody] at h
      exact .switch rfl (isOfSwitch_of_takeLong h)
  · rw [takeFree_short hg] at h
    exact .switch rfl (isOfSwitch_of_takeLetters h)
  · rw [takeFree_word hword] at h
    rw [takeWord_error h]
    exact .unexpected

/-- A fault that is met while no option waits for its value blames the word just read. -/
theorem blames_of_step (hmode : ∀ d index, walk.mode ≠ .awaiting d index)
    (h : step sig walk word = .error fault) : Blames word (walk.read + 1) fault := by
  cases hcase : walk.mode with
  | free =>
    simp only [step, hcase] at h
    exact blames_of_takeFree h
  | awaiting d index => exact absurd hcase (hmode d index)
  | words =>
    rw [step_words hcase] at h
    rw [takeWord_error h]
    exact .unexpected
  | capturing key =>
    rw [step_capturing hcase] at h
    cases h

/-- A fault that is met while an option waits for its value is about the option. -/
theorem isOfSwitch_of_awaiting (hmode : walk.mode = .awaiting d index)
    (h : step sig walk word = .error fault) : IsOfSwitch index fault := by
  simp only [step, hmode] at h
  split at h
  · cases h
    exact .valueMissing d
  · rw [record_error h]
    exact .duplicated d

/-! ## Where an option waits -/

theorem read_of_step (h : step sig walk word = .ok next) : next.read = walk.read + 1 := by
  cases hmode : walk.mode with
  | free => cases (step_free_eq_ok_iff hmode).mp h <;> rfl
  | awaiting d index =>
    obtain ⟨-, -, rfl⟩ := (step_awaiting_eq_ok_iff hmode).mp h
    rfl
  | words =>
    rw [step_words hmode] at h
    obtain ⟨d, rest, -, ⟨-, rfl⟩ | ⟨-, rfl⟩⟩ := takeWord_eq_ok_iff.mp h <;> rfl
  | capturing key =>
    rw [step_capturing hmode, Except.ok.injEq] at h
    rw [← h]

/-- A walk counts its words. -/
theorem read_of_run (h : run sig walk words = .ok last) : last.read = walk.read + words.length := by
  induction words generalizing walk with
  | nil =>
    cases h
    rfl
  | cons word rest ih =>
    obtain ⟨next, hstep, hrest⟩ := run_cons_eq_ok_iff.mp h
    rw [ih hrest, read_of_step hstep, List.length_cons]
    omega

theorem Closed.mode_ne_awaiting (h : walk.Closed) : walk.mode ≠ .awaiting d index := by
  rcases h with hmode | ⟨key, hmode⟩ <;> simp [hmode]

/-- A step after which an option waits has read the word of the option. -/
theorem awaiting_of_step (h : step sig walk word = .ok next) (hmode : next.mode = .awaiting d index) :
    walk.mode = .free ∧ word.head? = some dash ∧ index = walk.read + 1 := by
  cases hcase : walk.mode with
  | free =>
    cases (step_free_eq_ok_iff hcase).mp h with
    | option names kind =>
      cases hmode
      exact ⟨rfl, rfl, rfl⟩
    | terminator => cases hmode
    | capture cardinals greedy noSwitch => cases hmode
    | _ =>
      -- the others leave the mode as it was
      have hsame : walk.mode = .awaiting d index := hmode
      rw [hcase] at hsame
      cases hsame
  | awaiting e i =>
    obtain ⟨-, -, rfl⟩ := (step_awaiting_eq_ok_iff hcase).mp h
    cases hmode
  | words => exact absurd hmode (Closed.mode_ne_awaiting (.of_step (.inl hcase) h))
  | capturing key => exact absurd hmode (Closed.mode_ne_awaiting (.of_step (.inr ⟨key, hcase⟩) h))

/-- An option that waits for its value has been named by the last word. -/
theorem awaiting_of_run (h : run sig (start sig) words = .ok last) (hmode : last.mode = .awaiting d index) :
    ∃ front word middle, words = front ++ [word] ∧ run sig (start sig) front = .ok middle ∧
      middle.mode = .free ∧ word.head? = some dash ∧ index = words.length := by
  rcases List.eq_nil_or_concat words with rfl | ⟨front, word, rfl⟩
  · cases h
    cases hmode
  · rw [List.concat_eq_append] at h
    obtain ⟨middle, hfront, hword⟩ := run_append_eq_ok_iff.mp h
    obtain ⟨next, hstep, hnil⟩ := run_cons_eq_ok_iff.mp hword
    cases hnil
    obtain ⟨hfree, hopens, hindex⟩ := awaiting_of_step hstep hmode
    have hread : middle.read = 0 + front.length := read_of_run hfront
    refine ⟨front, word, middle, by simp, hfront, hfree, hopens, ?_⟩
    rw [hindex, hread]
    simp

/-- A walk fails at the first word that it refuses. -/
theorem run_eq_error_iff :
    run sig walk words = .error fault ↔
      ∃ front word rest middle, words = front ++ word :: rest ∧ run sig walk front = .ok middle ∧
        step sig middle word = .error fault := by
  constructor
  · intro h
    induction words generalizing walk with
    | nil => cases h
    | cons word rest ih =>
      rw [run_cons] at h
      cases hstep : step sig walk word with
      | error met =>
        rw [hstep] at h
        exact ⟨[], word, rest, walk, rfl, rfl, hstep.trans h⟩
      | ok next =>
        rw [hstep] at h
        obtain ⟨front, refused, tail, middle, rfl, hfront, hfault⟩ := ih h
        exact ⟨word :: front, refused, tail, middle, rfl,
          run_cons_eq_ok_iff.mpr ⟨next, hstep, hfront⟩, hfault⟩
  · rintro ⟨front, word, rest, middle, rfl, hfront, hfault⟩
    have htail : run sig middle (word :: rest) = .error fault := by
      rw [run_cons, hfault]
      rfl
    rw [run_append, hfront]
    exact htail

/-- A walk that has failed has failed, whatever words follow. -/
theorem run_error_append (h : run sig walk words = .error fault) (more : List Text) :
    run sig walk (words ++ more) = .error fault := by
  rw [run_append, h]
  rfl

end Walk

namespace Signature

variable {sig : Signature} {words : List Text} {fault : ArgumentFault}

/-! ## Where a walk fails -/

/-- Where a walk over some words fails: the words before the one that is blamed are read without a fault,
and that word with the one after it decides the fault.  An option at the end is missing its value. -/
structure FailsAt (sig : Signature) (fault : ArgumentFault) (front : List Text) (word : Text)
    (rest : List Text) : Prop where
  before : ∃ values, sig.walk front = .ok values
  blames : Blames word (front.length + 1) fault
  decided : Walk.run sig (.start sig) (front ++ word :: rest.take 1) = .error fault ∨
    (rest = [] ∧ fault.kind = .valueRequired)

theorem walk_eq_error_iff :
    sig.walk words = .error fault ↔
      Walk.run sig (.start sig) words = .error fault ∨
        ∃ last, Walk.run sig (.start sig) words = .ok last ∧ last.finish = .error fault := by
  unfold walk
  cases hrun : Walk.run sig (.start sig) words <;> simp

theorem walk_of_run {last : Walk} (h : Walk.run sig (.start sig) words = .ok last)
    (hmode : ∀ d index, last.mode ≠ .awaiting d index) : ∃ values, sig.walk words = .ok values := by
  refine ⟨last.values, walk_eq_ok_iff.mpr ⟨last, h, ?_⟩⟩
  unfold Walk.finish
  split
  · rename_i d index hawaiting
    exact absurd hawaiting (hmode d index)
  · rfl

/-- Every walk that fails, fails somewhere. -/
theorem exists_failsAt (h : sig.walk words = .error fault) :
    ∃ front word rest, words = front ++ word :: rest ∧ sig.FailsAt fault front word rest := by
  rcases walk_eq_error_iff.mp h with hrun | ⟨last, hrun, hfinish⟩
  · obtain ⟨front, word, rest, middle, rfl, hfront, hfault⟩ := Walk.run_eq_error_iff.mp hrun
    cases hmode : middle.mode with
    | awaiting d index =>
      -- the word is judged as the value of the option before it, which is blamed
      obtain ⟨front, option, earlier, rfl, hearlier, hfree, hopens, hindex⟩ :=
        Walk.awaiting_of_run hfront hmode
      have hswitch : IsOfSwitch index fault := Walk.isOfSwitch_of_awaiting hmode hfault
      refine ⟨front, option, word :: rest, by simp, walk_of_run hearlier (by simp [hfree]), ?_, .inl ?_⟩
      · rw [hindex, List.length_append] at hswitch
        exact .switch hopens hswitch
      · exact Walk.run_eq_error_iff.mpr ⟨front ++ [option], word, [], middle, by simp, hfront, hfault⟩
    | _ =>
      have hnot : ∀ d index, middle.mode ≠ .awaiting d index := by simp [hmode]
      have hblames := Walk.blames_of_step hnot hfault
      rw [Walk.read_of_run hfront] at hblames
      refine ⟨front, word, rest, rfl, walk_of_run hfront hnot, ?_, .inl ?_⟩
      · simpa [Walk.start] using hblames
      exact Walk.run_eq_error_iff.mpr ⟨front, word, rest.take 1, middle, rfl, hfront, hfault⟩
  · cases hmode : last.mode with
    | awaiting d index =>
      obtain ⟨front, option, earlier, rfl, hearlier, hfree, hopens, hindex⟩ :=
        Walk.awaiting_of_run hrun hmode
      obtain rfl : fault = .valueMissing d index := by simpa [Walk.finish, hmode] using hfinish.symm
      refine ⟨front, option, [], rfl, walk_of_run hearlier (by simp [hfree]), ?_, .inr ⟨rfl, rfl⟩⟩
      rw [hindex, List.length_append]
      exact .switch hopens (.valueMissing d)
    | _ => simp [Walk.finish, hmode] at hfinish

/-! ## The contract -/

theorem walk_of_parse_error (h : sig.parse words = .error fault) (hkind : fault.kind ∈ kindsOfWords) :
    sig.walk words = .error fault := by
  unfold parse at h
  split at h
  · rename_i hwalk
    cases h
    exact hwalk
  · split at h
    · rename_i hobjection
      cases h
      exact absurd hkind (kind_of_objectionTo? hobjection)
    · cases h

theorem parse_of_run_error (h : Walk.run sig (.start sig) words = .error fault) (more : List Text) :
    sig.parse (words ++ more) = .error fault := by
  have hwalk : sig.walk (words ++ more) = .error fault :=
    walk_eq_error_iff.mpr (.inl (Walk.run_error_append h more))
  rw [parse, hwalk]

/-- What holds of a fault that is found at a word, with the input and the index that it reports. -/
structure LocalFault (sig : Signature) (words : List Text) (fault : ArgumentFault) (input : Datum)
    (index : Nat) : Prop where
  reported : place input index <+: fault.context
  /-- The index is that of a word. -/
  inside : 1 ≤ index ∧ index ≤ words.length
  /-- Nothing is wrong with a word before it. -/
  first : ∀ earlier, sig.parse (words.take (index - 1)) = .error earlier → earlier.kind ∉ kindsOfWords
  /-- The word is what has no cardinal, or opens with a dash. -/
  word : ∃ word, words[index - 1]? = some word ∧
    if fault.kind = .unexpectedCardinal then input = .text word else word.head? = some dash
  /-- No word counts but those up to the index and the one after it. -/
  later : index < words.length → ∀ more, sig.parse (words.take (index + 1) ++ more) = .error fault
  /-- At the end, only a value can still be given. -/
  last : index = words.length → fault.kind ≠ .valueRequired →
    ∀ more, sig.parse (words ++ more) = .error fault

/-- Words that are read without a fault can only be refused as a whole. -/
theorem kind_of_walk_ok {values : Values} (hwalk : sig.walk words = .ok values)
    (h : sig.parse words = .error fault) : fault.kind ∉ kindsOfWords := by
  intro hkind
  rw [walk_of_parse_error h hkind] at hwalk
  cases hwalk

theorem FailsAt.exists_input {front rest : List Text} {word : Text}
    (h : sig.FailsAt fault front word rest) :
    ∃ input, place input (front.length + 1) <+: fault.context ∧
      if fault.kind = .unexpectedCardinal then input = .text word else word.head? = some dash := by
  cases h.blames with
  | unexpected => exact ⟨.text word, List.prefix_rfl, rfl⟩
  | switch opens switch =>
    obtain ⟨input, hreported⟩ := switch.reported
    exact ⟨input, hreported, by rwa [if_neg switch.kind_ne]⟩

/-- A fault that is found at a word is decided there. -/
theorem parse_fault_local (h : sig.parse words = .error fault) (hkind : fault.kind ∈ kindsOfWords) :
    ∃ input index, sig.LocalFault words fault input index := by
  obtain ⟨front, word, rest, rfl, hfails⟩ := exists_failsAt (walk_of_parse_error h hkind)
  obtain ⟨input, hreported, hword⟩ := hfails.exists_input
  refine ⟨input, front.length + 1, ?_⟩
  have hlength : (front ++ word :: rest).length = front.length + 1 + rest.length := by
    rw [List.length_append, List.length_cons]
    omega
  constructor
  · exact hreported
  · omega
  · intro earlier hearlier
    rw [Nat.add_sub_cancel, List.take_left] at hearlier
    obtain ⟨values, hvalues⟩ := hfails.before
    exact kind_of_walk_ok hvalues hearlier
  · exact ⟨word, by simp, hword⟩
  · intro hlater more
    rcases hfails.decided with hrun | ⟨rfl, -⟩
    · have htake : (front ++ word :: rest).take (front.length + 1 + 1) = front ++ word :: rest.take 1 := by
        rw [Nat.add_assoc, List.take_length_add_append]
        rfl
      rw [htake]
      exact parse_of_run_error hrun more
    · rw [hlength, List.length_nil] at hlater
      omega
  · intro hlast hvalue more
    have hrest : rest = [] := List.eq_nil_of_length_eq_zero (by omega)
    subst hrest
    rcases hfails.decided with hrun | ⟨-, hmissing⟩
    · exact parse_of_run_error hrun more
    · exact absurd hmissing hvalue

theorem parse_fault_local_copying :
    copying.parse ["-v", "--count", "3", "here", "--count", "4", "-x"] =
        .error (.duplicated ⟨.option "COUNT", "--count", false, false, none⟩ 5) ∧
      Fault.Kind.duplicatedSwitch ∈ kindsOfWords ∧
      ∃ input index, copying.LocalFault ["-v", "--count", "3", "here", "--count", "4", "-x"]
        (.duplicated ⟨.option "COUNT", "--count", false, false, none⟩ 5) input index := by
  have hparse : copying.parse ["-v", "--count", "3", "here", "--count", "4", "-x"] =
      .error (.duplicated ⟨.option "COUNT", "--count", false, false, none⟩ 5) := by decide
  exact ⟨hparse, by decide, parse_fault_local hparse (by decide)⟩

end Signature

end CommandTree
