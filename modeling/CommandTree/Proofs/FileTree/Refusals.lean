import CommandTree.Proofs.FileTree.Walk

/-!
# Why a path cannot be followed

A path that cannot be followed leads to nothing, which is an answer, or has a name on its way that is too
long, which is a refusal (`FileTree.isAbsence_or_eq_nameTooLong`).  A name may be too long although it was
not written by the one who gave the path: the names of the target of a link are followed as well.  In a tree in
which those are of lawful length only the names of the path itself can be refused
(`FileTree.TargetsFit.stat_child_ne_nameTooLong`).

Following a path and then one more name is following the name from the location of the path, with the links
that are left (`FileTree.exists_locate_child`).  So the length of a name that is not listed in a directory
decides alone what becomes of it (`FileTree.stat_child_of_not_listed`).
-/

namespace CommandTree

namespace FileTree

variable {tree : FileTree} {links : Nat} {here rest location : List Text} {name : Text} {path : Path}
  {reason : Errno}

/-- Whether a name is of lawful length. -/
def Fits (name : Text) : Prop :=
  name.toBytes.length ≤ nameLimit

instance (name : Text) : Decidable (Fits name) :=
  inferInstanceAs (Decidable (name.toBytes.length ≤ nameLimit))

/-! ## The reasons -/

theorem walk_ne_isDirectory : tree.walk links here rest ≠ .error .isDirectory := by
  fun_induction walk tree links here rest with
  | case1 | case4 | case5 | case6 | case9 => simp
  | case2 links here name rest entries hinside hdot ih => exact ih
  | case3 links here rest entries hinside hdot ih => exact ih
  | case7 here name rest entries hinside hdot hup hlength target hfound links ih => exact ih
  | case8 links here name rest entries hinside hdot hup hlength node hnotLink hfound ih => exact ih

theorem locate_ne_isDirectory : tree.locate path ≠ .error .isDirectory := by
  unfold locate
  split
  · exact nofun
  · exact walk_ne_isDirectory

/-- There is nothing at a path that leads nowhere, unless a name on the way is too long. -/
theorem isAbsence_or_eq_nameTooLong (h : tree.stat path = .error reason) :
    reason.isAbsence = true ∨ reason = .nameTooLong := by
  have hreason : reason ≠ .isDirectory := by
    rintro rfl
    unfold stat at h
    split at h
    · rename_i hlocate
      cases h
      exact locate_ne_isDirectory hlocate
    · split at h <;> cases h
  cases reason with
  | noEntry => exact .inl rfl
  | notDirectory => exact .inl rfl
  | isDirectory => exact absurd rfl hreason
  | nameTooLong => exact .inr rfl
  | tooManyLinks => exact .inl rfl

/-! ## One more name -/

/-- A walk that comes to an end is continued from there, with the links that are left. -/
theorem exists_walk_append (h : tree.walk links here rest = .ok location) :
    ∃ left, ∀ more, tree.walk links here (rest ++ more) = tree.walk left location more := by
  fun_induction walk tree links here rest with
  | case1 links here =>
    cases h
    exact ⟨links, fun more => rfl⟩
  | case2 links here name rest entries hinside hdot ih =>
    obtain ⟨left, hleft⟩ := ih h
    refine ⟨left, fun more => ?_⟩
    rw [List.cons_append, walk, hinside, ← hleft]
    exact if_pos hdot
  | case3 links here rest entries hinside hdot ih =>
    obtain ⟨left, hleft⟩ := ih h
    refine ⟨left, fun more => ?_⟩
    rw [List.cons_append, walk, hinside, ← hleft]
    exact (if_neg hdot).trans (if_pos rfl)
  | case4 | case5 | case6 | case9 => cases h
  | case7 here name rest entries hinside hdot hup hlength target hfound links ih =>
    obtain ⟨left, hleft⟩ := ih h
    refine ⟨left, fun more => ?_⟩
    rw [List.cons_append, walk, hinside, ← hleft]
    simp only [if_neg hdot, if_neg hup, if_neg hlength, hfound, List.append_assoc, dite_eq_ite]
  | case8 links here name rest entries hinside hdot hup hlength node hnotLink hfound ih =>
    obtain ⟨left, hleft⟩ := ih h
    refine ⟨left, fun more => ?_⟩
    rw [List.cons_append, walk, hinside, ← hleft]
    simp only [if_neg hdot, if_neg hup, if_neg hlength, hfound]

theorem unspeakable_child (path : Path) (name : Text) :
    unspeakable (path.child name) = (unspeakable path || name.contains (.char '\x00')) := by
  simp [unspeakable, Path.child]

/-- An entry is looked up from the location of its directory, with the links that are left. -/
theorem exists_locate_child (h : tree.locate path = .ok location) :
    ∃ left, ∀ name, tree.locate (path.child name) =
      if name.contains (.char '\x00') then .error .noEntry else tree.walk left location [name] := by
  unfold locate at h
  split at h
  · cases h
  · rename_i hspeakable
    obtain ⟨left, hleft⟩ := exists_walk_append h
    refine ⟨left, fun name => ?_⟩
    rw [locate, unspeakable_child, Bool.eq_false_iff.mpr hspeakable, Bool.false_or, Path.child, hleft]

/-- What is not listed in a directory is not there, except that its name may be too long to say so. -/
theorem stat_child_of_not_listed {names : List Text} (h : tree.list path = .ok names) (hname : name ∉ names)
    (hne : name ≠ []) (hhere : name ≠ Path.here) (hup : name ≠ Path.up) :
    tree.stat (path.child name) =
      .error (if Fits name ∨ Glyph.char '\x00' ∈ name then .noEntry else .nameTooLong) := by
  obtain ⟨entries, hstat, rfl⟩ : ∃ entries, tree.stat path = .ok (.directory entries) ∧
      entries.map Prod.fst = names := by
    unfold list at h
    split at h
    · rename_i entries hstat
      exact ⟨entries, hstat, Except.ok.inj h⟩
    · cases h
    · cases h
  obtain ⟨location, hlocate, hnode⟩ := stat_eq_ok_iff.mp hstat
  obtain ⟨left, hchild⟩ := exists_locate_child hlocate
  have hlookup : List.lookup name entries = none :=
    List.lookup_eq_none_iff.mpr fun entry hentry =>
      bne_iff_ne.mpr fun heq => hname (List.mem_map.mpr ⟨entry, hentry, heq.symm⟩)
  have hdot : ¬(name = [] ∨ name = Path.here) := not_or.mpr ⟨hne, hhere⟩
  have hwalk : tree.walk left location [name] =
      .error (if Fits name then .noEntry else .nameTooLong) := by
    rw [walk, hnode]
    simp only [if_neg hdot, if_neg hup, hlookup]
    by_cases hfits : Fits name
    · rw [if_neg (not_lt.mpr hfits), if_pos hfits]
    · rw [if_pos (not_le.mp hfits), if_neg hfits]
  rw [stat, hchild, hwalk]
  by_cases hnul : Glyph.char '\x00' ∈ name
  · rw [if_pos (List.contains_iff_mem.mpr hnul), if_pos (.inr hnul)]
  · rw [if_neg (mt List.contains_iff_mem.mp hnul)]
    simp only [hnul, or_false]

/-! ## Names of lawful length -/

/-- Whether the names in the targets of all links are of lawful length. -/
def TargetsFit (tree : FileTree) : Prop :=
  ∀ location target, tree.node? location = some (.link target) → ∀ name ∈ Text.splitAt Path.slash target,
    Fits name

namespace TargetsFit

/-- No walk is refused on whose way all names are of lawful length. -/
theorem walk_ne_nameTooLong (htargets : tree.TargetsFit) (h : ∀ name ∈ rest, Fits name) :
    tree.walk links here rest ≠ .error .nameTooLong := by
  fun_induction walk tree links here rest with
  | case1 | case5 | case6 | case9 => simp
  | case2 links here name rest entries hinside hdot ih => exact ih (List.forall_mem_cons.mp h).2
  | case3 links here rest entries hinside hdot ih => exact ih (List.forall_mem_cons.mp h).2
  | case4 links here name rest entries hinside hdot hup hlength =>
    exact absurd (List.forall_mem_cons.mp h).1 (not_le.mpr hlength)
  | case7 here name rest entries hinside hdot hup hlength target hfound links ih =>
    have hlink : tree.node? (here ++ [name]) = some (.link target) :=
      Node.descend_append_singleton_iff.mpr ⟨entries, hinside, hfound⟩
    refine ih fun other hother => ?_
    rcases List.mem_append.mp hother with hpushed | hrest
    · exact htargets _ _ hlink other hpushed
    · exact (List.forall_mem_cons.mp h).2 other hrest
  | case8 links here name rest entries hinside hdot hup hlength node hnotLink hfound ih =>
    exact ih (List.forall_mem_cons.mp h).2

/-- Whatever the path of a directory looks like, only the name of an entry of it can be refused. -/
theorem stat_child_ne_nameTooLong (htargets : tree.TargetsFit) {entries : List (Text × Node)}
    (h : tree.stat path = .ok (.directory entries)) (hname : Fits name) :
    tree.stat (path.child name) ≠ .error .nameTooLong := by
  obtain ⟨location, hlocate, -⟩ := stat_eq_ok_iff.mp h
  obtain ⟨left, hchild⟩ := exists_locate_child hlocate
  have hlocated : tree.locate (path.child name) ≠ .error .nameTooLong := by
    rw [hchild]
    split
    · exact nofun
    · exact htargets.walk_ne_nameTooLong (by simpa using hname)
  unfold stat
  split
  · rename_i reason hreason
    exact fun heq => hlocated (hreason.trans (congrArg _ (Except.error.inj heq)))
  · split <;> exact nofun

end TargetsFit

end FileTree

end CommandTree
