import CommandTree.Docs.Source
import CommandTree.Proofs.FileTree.Writing
import CommandTree.Proofs.Text.Utf8
import Mathlib.Data.List.DropRight
import Mathlib.Data.List.Forall2

/-!
# What a comment block says

The lines at the top of a file (`Block.Heads`) and what each of them says (`Block.Says`), both without the functions
that find and decode them: the lines are put together to the file, and the characters of a line to its bytes.

`Heads.rawBlock_eq` ties the lines to `rawBlock`, and `decodeFrom_eq_ok_iff` and `decodeFrom_eq_error_iff` say when
they are decoded.  That nothing below the block counts is `Heads.replace`.  `Docs.blockAt_contract` is the account of
the block of a file, whatever its bytes.
-/

namespace CommandTree

namespace Block

variable {content line rest : List UInt8} {block lines : List (List UInt8)} {number : Nat} {text : Text}
  {texts : List Text}

/-! ## The lines at the top -/

/-- What is at the top of a file: lines that start with a hash, each ended by a line feed or by the end of the file,
up to a line that starts otherwise. -/
inductive Heads : List (List UInt8) → List UInt8 → Prop where
  | nil {content : List UInt8} (other : content.head? ≠ some hash) : Heads [] content
  | last {line : List UInt8} (opens : line.head? = some hash) (unbroken : lineFeed ∉ line) : Heads [line] line
  | cons {line rest : List UInt8} {block : List (List UInt8)} (opens : line.head? = some hash)
      (unbroken : lineFeed ∉ line) (more : Heads block rest) :
      Heads (line :: block) (line ++ lineFeed :: rest)

theorem rawLines_append (h : lineFeed ∉ line) (rest : List UInt8) :
    rawLines (line ++ lineFeed :: rest) = line :: rawLines rest := by
  induction line with
  | nil => simp [rawLines]
  | cons b line ih =>
    obtain ⟨hb, hline⟩ := not_or.mp (mt List.mem_cons.mpr h)
    rw [List.cons_append, rawLines, if_neg (Ne.symm hb), ih hline]

theorem rawLines_eq_self (h : lineFeed ∉ line) (hne : line ≠ []) : rawLines line = [line] := by
  induction line with
  | nil => exact absurd rfl hne
  | cons b line ih =>
    obtain ⟨hb, hline⟩ := not_or.mp (mt List.mem_cons.mpr h)
    rw [rawLines, if_neg (Ne.symm hb)]
    by_cases hnil : line = []
    · rw [hnil, rawLines]
    · rw [ih hline hnil]

/-- The first line starts as the file does. -/
theorem head?_of_rawLines_eq_cons {first : List UInt8} (h : content.head? ≠ some hash)
    (hlines : rawLines content = first :: lines) : first.head? ≠ some hash := by
  cases content with
  | nil => cases hlines
  | cons b rest =>
    rw [rawLines] at hlines
    split at hlines
    · cases hlines
      exact nofun
    · split at hlines <;> cases hlines <;> exact h

theorem rawBlock_of_other (h : content.head? ≠ some hash) : rawBlock content = [] := by
  unfold rawBlock
  cases hlines : rawLines content with
  | nil => rfl
  | cons first more => simp [head?_of_rawLines_eq_cons h hlines]

theorem Heads.rawBlock_eq (h : Heads block content) : rawBlock content = block := by
  induction h with
  | nil other => exact rawBlock_of_other other
  | @last line opens unbroken =>
    have hne : line ≠ [] := by
      rintro rfl
      cases opens
    simp [rawBlock, rawLines_eq_self unbroken hne, opens]
  | cons opens unbroken more ih =>
    rw [rawBlock, rawLines_append unbroken, List.takeWhile_cons_of_pos (by simpa using opens)]
    exact congrArg _ ih

theorem exists_heads (content : List UInt8) : ∃ block, Heads block content := by
  by_cases hopens : content.head? = some hash
  · by_cases hfeed : lineFeed ∈ content
    · obtain ⟨line, rest, hcontent, hline⟩ := List.eq_append_cons_of_mem hfeed
      have hshorter : rest.length < content.length := by
        rw [hcontent, List.length_append, List.length_cons]
        omega
      obtain ⟨block, hblock⟩ := exists_heads rest
      have hopensLine : line.head? = some hash := by
        cases line with
        | nil => simp [hcontent, lineFeed, hash] at hopens
        | cons b line => simpa [hcontent] using hopens
      rw [hcontent]
      exact ⟨line :: block, .cons hopensLine hline hblock⟩
    · exact ⟨[content], .last hopens hfeed⟩
  · exact ⟨[], .nil hopens⟩
termination_by content.length

theorem Heads.opens (h : Heads block content) : ∀ line ∈ block, line.head? = some hash := by
  induction h with
  | nil other => simp
  | last opens unbroken => simpa using opens
  | cons opens unbroken more ih => exact List.forall_mem_cons.mpr ⟨opens, ih⟩

theorem Heads.unbroken (h : Heads block content) : ∀ line ∈ block, lineFeed ∉ line := by
  induction h with
  | nil other => simp
  | last opens unbroken => simpa using unbroken
  | cons opens unbroken more ih => exact List.forall_mem_cons.mpr ⟨unbroken, ih⟩

/-- The bytes of some lines that are all ended. -/
def ended (block : List (List UInt8)) : List UInt8 :=
  block.flatMap fun line => line ++ [lineFeed]

theorem heads_ended (hopens : ∀ line ∈ block, line.head? = some hash) (hunbroken : ∀ line ∈ block, lineFeed ∉ line)
    (hrest : rest.head? ≠ some hash) : Heads block (ended block ++ rest) := by
  induction block with
  | nil => exact .nil hrest
  | cons line block ih =>
    obtain ⟨hline, hopens⟩ := List.forall_mem_cons.mp hopens
    obtain ⟨hfeed, hunbroken⟩ := List.forall_mem_cons.mp hunbroken
    simpa [ended] using Heads.cons hline hfeed (ih hopens hunbroken)

/-- What follows the block is of no account as long as it does not continue the block. -/
theorem Heads.replace (h : Heads block content) (hrest : rest.head? ≠ some hash) :
    Heads block (ended block ++ rest) :=
  heads_ended h.opens h.unbroken hrest

/-! ## Decoding -/

/-- Whether some bytes are UTF-8. -/
def IsUtf8 (line : List UInt8) : Prop :=
  ∃ chars, Text.encode chars = line

/-- What a line says: its characters, up to the carriage returns at its end. -/
inductive Says : List UInt8 → Text → Prop where
  | intro (chars : List Char) (returns : Nat) (clean : chars.getLast? ≠ some '\r') :
      Says (Text.encode (chars ++ List.replicate returns '\r')) (Text.ofChars chars)

theorem exists_append_replicate (chars : List Char) :
    ∃ clean returns, chars = clean ++ List.replicate returns '\r' ∧ clean.getLast? ≠ some '\r' := by
  induction chars using List.reverseRecOn with
  | nil => exact ⟨[], 0, rfl, nofun⟩
  | append_singleton chars c ih =>
    by_cases hc : c = '\r'
    · obtain ⟨clean, returns, rfl, hclean⟩ := ih
      exact ⟨clean, returns + 1, by rw [hc, List.append_assoc, List.replicate_succ'], hclean⟩
    · exact ⟨chars ++ [c], 0, by simp, by simpa using hc⟩

theorem cleanLine_ofChars {chars : List Char} (returns : Nat) (h : chars.getLast? ≠ some '\r') :
    cleanLine (Text.ofChars (chars ++ List.replicate returns '\r')) = Text.ofChars chars := by
  change List.rdropWhile _ _ = _
  induction returns with
  | zero =>
    rw [List.replicate_zero, List.append_nil, List.rdropWhile_eq_self_iff]
    intro hne hlast
    have hchars : chars ≠ [] := fun hnil => hne (congrArg Text.ofChars hnil)
    refine h ?_
    simpa [Text.ofChars, List.getLast?_eq_some_getLast hchars] using hlast
  | succ returns ih =>
    have hlast : Text.ofChars (chars ++ List.replicate (returns + 1) '\r') =
        Text.ofChars (chars ++ List.replicate returns '\r') ++ [.char '\r'] := by
      simp [Text.ofChars, List.replicate_succ']
    rw [hlast, List.rdropWhile_concat_pos _ _ _ (by simp), ih]

theorem says_iff : Says line text ↔ ∃ decoded, Text.ofUtf8? line = some decoded ∧ cleanLine decoded = text := by
  constructor
  · rintro ⟨chars, returns, clean⟩
    exact ⟨_, Text.ofUtf8?_eq_some_iff.mpr ⟨_, rfl, rfl⟩, cleanLine_ofChars returns clean⟩
  · rintro ⟨decoded, hdecoded, rfl⟩
    obtain ⟨chars, rfl, rfl⟩ := Text.ofUtf8?_eq_some_iff.mp hdecoded
    obtain ⟨clean, returns, rfl, hclean⟩ := exists_append_replicate chars
    rw [cleanLine_ofChars returns hclean]
    exact .intro clean returns hclean

theorem ofUtf8?_eq_none_iff : Text.ofUtf8? line = none ↔ ¬IsUtf8 line := by
  rw [← not_iff_not, not_not, ← ne_eq, Option.ne_none_iff_exists']
  simp [IsUtf8, Text.ofUtf8?_eq_some_iff]

/-- Where the first line stands that is not UTF-8, counted from one. -/
def FirstBroken (lines : List (List UInt8)) (number : Nat) : Prop :=
  ∃ before line after, lines = before ++ line :: after ∧ number = before.length + 1 ∧
    (∀ earlier ∈ before, IsUtf8 earlier) ∧ ¬IsUtf8 line

theorem firstBroken_cons_iff : FirstBroken (line :: lines) number ↔
    ¬IsUtf8 line ∧ number = 1 ∨ IsUtf8 line ∧ ∃ later, FirstBroken lines later ∧ number = later + 1 := by
  constructor
  · rintro ⟨before, broken, after, hlines, rfl, hbefore, hbroken⟩
    cases before with
    | nil =>
      cases hlines
      exact .inl ⟨hbroken, rfl⟩
    | cons first before =>
      cases hlines
      obtain ⟨hfirst, hbefore⟩ := List.forall_mem_cons.mp hbefore
      exact .inr ⟨hfirst, _, ⟨before, broken, after, rfl, rfl, hbefore, hbroken⟩, rfl⟩
  · rintro (⟨hbroken, rfl⟩ | ⟨hline, _, ⟨before, broken, after, rfl, rfl, hbefore, hbroken⟩, rfl⟩)
    · exact ⟨[], line, lines, rfl, rfl, nofun, hbroken⟩
    · exact ⟨line :: before, broken, after, rfl, rfl, List.forall_mem_cons.mpr ⟨hline, hbefore⟩, hbroken⟩

theorem decodeFrom_eq_ok_iff : decodeFrom number lines = .ok texts ↔ List.Forall₂ Says lines texts := by
  induction lines generalizing number texts with
  | nil => simp [decodeFrom, eq_comm]
  | cons line rest ih =>
    rw [decodeFrom, List.forall₂_cons_left_iff]
    cases hdecoded : Text.ofUtf8? line with
    | none => simp [says_iff, hdecoded]
    | some decoded =>
      simp only [says_iff, hdecoded, ← @ih (number + 1)]
      cases decodeFrom (number + 1) rest <;> simp [Except.map, eq_comm]

/-- Lines are refused for the first that is not UTF-8, by the number it has where the first of them has `start`. -/
theorem decodeFrom_eq_error_iff {start : Nat} :
    decodeFrom start lines = .error number ↔ ∃ place, FirstBroken lines place ∧ number + 1 = start + place := by
  induction lines generalizing start with
  | nil => simp [decodeFrom, FirstBroken]
  | cons line rest ih =>
    rw [decodeFrom]
    cases hdecoded : Text.ofUtf8? line with
    | none =>
      have hbroken := ofUtf8?_eq_none_iff.mp hdecoded
      simp [firstBroken_cons_iff, hbroken, eq_comm]
    | some decoded =>
      have hutf8 : IsUtf8 line := by
        obtain ⟨chars, hchars, -⟩ := Text.ofUtf8?_eq_some_iff.mp hdecoded
        exact ⟨chars, hchars⟩
      have hmap : (decodeFrom (start + 1) rest).map (fun texts => cleanLine decoded :: texts) = .error number ↔
          decodeFrom (start + 1) rest = .error number := by
        cases decodeFrom (start + 1) rest <;> simp [Except.map]
      rw [hmap, ih]
      simp only [firstBroken_cons_iff, hutf8, not_true, false_and, true_and, false_or]
      constructor
      · rintro ⟨place, hplace, hnumber⟩
        exact ⟨_, ⟨place, hplace, rfl⟩, by omega⟩
      · rintro ⟨_, ⟨place, hplace, rfl⟩, hnumber⟩
        exact ⟨place, hplace, by omega⟩

/-- A line feed in what is said is one in the bytes. -/
theorem Says.unbroken (h : Says line text) (hline : lineFeed ∉ line) : .char '\n' ∉ text := by
  obtain ⟨chars, returns, -⟩ := h
  intro hmem
  refine hline ?_
  have hchar : '\n' ∈ chars := by simpa [Text.ofChars] using hmem
  exact List.mem_flatMap.mpr ⟨'\n', List.mem_append_left _ hchar, by decide⟩

theorem unbroken_of_forall₂ (h : List.Forall₂ Says lines texts) (hlines : ∀ line ∈ lines, lineFeed ∉ line) :
    ∀ text ∈ texts, .char '\n' ∉ text := by
  induction h with
  | nil => exact nofun
  | cons hsaid _ ih =>
    obtain ⟨hline, hlines⟩ := List.forall_mem_cons.mp hlines
    exact List.forall_mem_cons.mpr ⟨hsaid.unbroken hline, ih hlines⟩

end Block

/-! ## The contract -/

namespace Docs

open Block

variable {tree : FileTree} {path : Path} {content : List UInt8}

/-- What is read of a file with a block: what the lines of the block say, unless one of them is not UTF-8; then the
number of the first of these.  No text is broken. -/
structure Reads (path : Path) (block : List (List UInt8)) (outcome : Except Failure (List Text)) : Prop where
  texts : ∀ texts, outcome = .ok texts ↔ List.Forall₂ Says block texts
  failure : ∀ failure, outcome = .error failure ↔
    ∃ number, FirstBroken block number ∧ failure = .cause (.undecodableLine path number)
  unbroken : ∀ texts, outcome = .ok texts → ∀ text ∈ texts, .char '\n' ∉ text

theorem blockAt_eq_ok_iff {texts : List Text} (hread : tree.read path = .ok content) :
    blockAt tree path = .ok texts ↔ Block.read content = .ok texts := by
  cases hblock : Block.read content <;> simp [blockAt, hread, hblock]

theorem blockAt_eq_error_iff {failure : Failure} (hread : tree.read path = .ok content) :
    blockAt tree path = .error failure ↔
      ∃ number, Block.read content = .error number ∧ failure = .cause (.undecodableLine path number) := by
  cases hblock : Block.read content <;> simp [blockAt, hread, hblock, eq_comm]

theorem reads_blockAt {block : List (List UInt8)} (hread : tree.read path = .ok content)
    (hheads : Heads block content) : Reads path block (blockAt tree path) := by
  have htexts : ∀ texts, blockAt tree path = .ok texts ↔ List.Forall₂ Says block texts := fun texts => by
    rw [blockAt_eq_ok_iff hread, Block.read, hheads.rawBlock_eq, decodeFrom_eq_ok_iff]
  refine ⟨htexts, fun failure => ?_, fun texts hok => unbroken_of_forall₂ ((htexts texts).mp hok) hheads.unbroken⟩
  rw [blockAt_eq_error_iff hread, Block.read, hheads.rawBlock_eq]
  simp only [decodeFrom_eq_error_iff, Nat.add_comm 1, Nat.add_right_cancel_iff, exists_eq_right']

/-- There is one block at the top of a file, which alone decides what is read of it: another file is read alike if it
has the same block, whatever follows the block there. -/
theorem blockAt_contract (hread : tree.read path = .ok content) :
    ∃ block, (∀ lines, Heads lines content ↔ lines = block) ∧ Reads path block (blockAt tree path) ∧
      (∀ other changed, other.read path = .ok changed → Heads block changed →
        blockAt other path = blockAt tree path) ∧
      ∀ other rest, rest.head? ≠ some hash → other.read path = .ok (ended block ++ rest) →
        blockAt other path = blockAt tree path := by
  obtain ⟨block, hheads⟩ := exists_heads content
  have hunique : ∀ lines, Heads lines content ↔ lines = block := fun lines =>
    ⟨fun hlines => hlines.rawBlock_eq.symm.trans hheads.rawBlock_eq, fun h => h ▸ hheads⟩
  have hsame : ∀ other changed, other.read path = .ok changed → Heads block changed →
      blockAt other path = blockAt tree path := fun other changed hother hchanged => by
    simp only [blockAt, hother, hread, Block.read, hchanged.rawBlock_eq, hheads.rawBlock_eq]
  exact ⟨block, hunique, reads_blockAt hread hheads, hsame, fun other rest hrest hother =>
    hsame other _ hother (hheads.replace hrest)⟩

/-- The lines of a block, some with carriage returns at their ends. -/
def toolBlock : List (List UInt8) :=
  ["#!/bin/sh\r".toUTF8.toList, "# Größe\r\r".toUTF8.toList, "#".toUTF8.toList]

/-- A file of which what follows the block is no text, and looks like a comment further down. -/
def tool : List UInt8 :=
  ended toolBlock ++ [0x7F, 0x45, 0xFF, lineFeed, hash, 0xC3]

def toolPath : Path :=
  ⟨.root, ["tool"]⟩

def toolTree : FileTree :=
  FileTree.empty.write toolPath 0o755 tool

/-- The tree with another program below the same block. -/
def rebuiltTree : FileTree :=
  FileTree.empty.write toolPath 0o755 (ended toolBlock ++ [0xFE])

theorem blockAt_contract_tool : toolTree.read toolPath = .ok tool ∧
    blockAt toolTree toolPath = .ok ["#!/bin/sh", "# Größe", "#"] ∧
    blockAt rebuiltTree toolPath = .ok ["#!/bin/sh", "# Größe", "#"] := by
  have hread : toolTree.read toolPath = .ok tool := FileTree.read_write_of_new (by decide) rfl rfl
  have htexts : blockAt toolTree toolPath = .ok ["#!/bin/sh", "# Größe", "#"] := by
    have hblock : Block.read tool = .ok ["#!/bin/sh", "# Größe", "#"] := by decide +kernel
    simp only [blockAt, hread, hblock]
  have hheads : Heads toolBlock tool := heads_ended (by decide +kernel) (by decide +kernel) (by decide)
  obtain ⟨block, hunique, -, -, hreplace⟩ := blockAt_contract hread
  obtain rfl := (hunique _).mp hheads
  have hrebuilt : rebuiltTree.read toolPath = .ok (ended toolBlock ++ [0xFE]) :=
    FileTree.read_write_of_new (by decide) rfl rfl
  exact ⟨hread, htexts, (hreplace rebuiltTree [0xFE] (by decide) hrebuilt).trans htexts⟩

/-- A line that is not UTF-8 is told by its number. -/
example : Block.read ("# ok\n".toUTF8.toList ++ [hash, 0xFF]) = .error 2 := by decide +kernel

end Docs

end CommandTree
