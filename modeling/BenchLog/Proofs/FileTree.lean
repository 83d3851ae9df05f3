import BenchLog.FileTree

/-! What writing one file does to a tree.
The content is found under the path afterwards, the files at all other places keep theirs, and every
directory stays one, since a file is only created in a directory that exists.
-/

namespace BenchLog.FileTree

variable {tree after : FileTree} {p : Path} {names : List (List Char)} {bytes : List UInt8}

/-- The trees differ at most in the file to which the path leads, which has the content in the
second one. -/
structure Updates (tree : FileTree) (p : Path) (bytes : List UInt8) (after : FileTree) : Prop where
  content : after.read p = .ok bytes
  others : ∀ place, after.place p ≠ .ok place → after.content? place = tree.content? place
  directories : ∀ place, after.isDirectory place = tree.isDirectory place

/-- A sequence of two computations that may fail gives a result only if both do. -/
theorem exists_of_bind_eq_ok {ε α β : Type} {x : Except ε α} {next : α → Except ε β} {b : β}
    (h : x >>= next = .ok b)
    : ∃ a, x = .ok a ∧ next a = .ok b := by
  cases x with
  | ok a => exact ⟨a, rfl, h⟩
  | error e => cases h

-----------------------------------------------------------------------------------------
-- Places
-----------------------------------------------------------------------------------------

/-- What lies on the way to a directory is a directory. -/
theorem isDirectory_of_prefix {above directory : List (List Char)} (h : above <+: directory)
    (hdirectory : tree.isDirectory (.inside directory) = true)
    : tree.isDirectory (.inside above) = true := by
  simp only [isDirectory, Bool.or_eq_true, beq_iff_eq, List.any_eq_true, Bool.and_eq_true,
    List.isPrefixOf_iff_prefix, decide_eq_true_eq] at hdirectory ⊢
  rcases hdirectory with rfl | ⟨file, hfile, hbegins, hlength⟩
  · exact Or.inl (List.prefix_nil.mp h)
  · exact Or.inr ⟨file, hfile, h.trans hbegins, Nat.lt_of_le_of_lt h.length_le hlength⟩

/-- A walk along two rows of parts goes on from where the first one leads. -/
theorem walk_append {origin directory : Place} {pieces : List (List Char)}
    (h : tree.walk origin pieces = .ok directory) (more : List (List Char))
    : tree.walk origin (pieces ++ more) = tree.walk directory more := by
  induction pieces generalizing origin with
  | nil =>
      cases h
      rfl
  | cons piece pieces ih =>
      rw [walk] at h
      rw [List.cons_append, walk]
      split at h
      · next hdirectory =>
          rw [if_pos hdirectory]
          split at h
          · exact ih h
          · cases h
      · split at h
        · cases h
        · cases h

/-- Where a walk leads is settled by which places are directories. -/
theorem walk_of_isDirectory_eq (h : ∀ place, after.isDirectory place = tree.isDirectory place)
    {origin directory : Place} {pieces : List (List Char)}
    (hwalk : tree.walk origin pieces = .ok directory)
    : after.walk origin pieces = .ok directory := by
  induction pieces generalizing origin with
  | nil => exact hwalk
  | cons piece pieces ih =>
      rw [walk] at hwalk ⊢
      rw [h]
      split at hwalk
      · next hdirectory =>
          rw [if_pos hdirectory]
          split at hwalk
          · exact ih hwalk
          · cases hwalk
      · split at hwalk
        · cases hwalk
        · cases hwalk

/-- A step by a part that is a name leads below the directory. -/
theorem eq_append_of_step {place : Place} {piece : List Char}
    (hmeaningful : ¬ (Path.isIdle piece || piece == Path.up) = true)
    (h : step place piece = .ok (.inside names))
    : ∃ directory, place = .inside directory ∧ names = directory ++ [piece] := by
  rw [Bool.or_eq_true, not_or, beq_iff_eq] at hmeaningful
  obtain ⟨hidle, hup⟩ := hmeaningful
  unfold step at h
  rw [if_neg hidle] at h
  split at h
  · rw [if_neg hup] at h
    cases h
  · next directory =>
      rw [if_neg hup] at h
      split at h
      · cases h
      · cases h
        exact ⟨directory, rfl, rfl⟩

/-- A file is created under the last part of its path, in the directory to which the other parts
lead. -/
theorem exists_of_target (h : tree.target p = .ok names)
    : ∃ origin parents directory piece,
        start p = .ok (origin, parents ++ [piece])
        ∧ tree.walk origin parents = .ok (.inside directory)
        ∧ tree.isDirectory (.inside directory) = true
        ∧ step (.inside directory) piece = .ok (.inside names)
        ∧ names = directory ++ [piece] := by
  unfold target at h
  obtain ⟨⟨origin, pieces⟩, hstart, h⟩ := exists_of_bind_eq_ok h
  obtain ⟨place, hwalk, h⟩ := exists_of_bind_eq_ok h
  dsimp only at hwalk h
  split at h
  · cases h
  · next hdirectory =>
      split at h
      · cases h
      · next piece hlast =>
          split at h
          · cases h
          · next hmeaningful =>
              obtain ⟨found, hstep, h⟩ := exists_of_bind_eq_ok h
              split at h
              · cases h
              · split at h
                · cases h
                · cases h
                  obtain ⟨directory, rfl, hnames⟩ := eq_append_of_step hmeaningful hstep
                  obtain ⟨parents, rfl⟩ := List.getLast?_eq_some_iff.mp hlast
                  have hparents
                      : (((parents ++ [piece]).reverse.dropWhile (· == [])).reverse).dropLast =
                          parents := by
                    have hne : piece ≠ [] := by
                      rintro rfl
                      exact hmeaningful rfl
                    simp [hne]
                  rw [hparents] at hwalk
                  refine ⟨origin, parents, directory, piece, hstart, hwalk, ?_, hstep, hnames⟩
                  simpa using hdirectory

-----------------------------------------------------------------------------------------
-- One file replaced or added
-----------------------------------------------------------------------------------------

/-- The files after one was put are the former ones and the new one. -/
theorem any_putFile (names : List (List Char)) (bytes : List UInt8)
    (files : List (List (List Char) × List UInt8)) (q : List (List Char) → Bool)
    : (putFile names bytes files).any (fun file => q file.1) =
        (q names || files.any fun file => q file.1) := by
  induction files with
  | nil => simp [putFile]
  | cons file files ih =>
      rw [putFile]
      split
      · next heq => simp [heq]
      · rw [List.any_cons, List.any_cons, ih, Bool.or_left_comm]

/-- A file that is created in a directory makes no other place a directory. -/
theorem isDirectory_putFile {directory : List (List Char)}
    (hdirectory : tree.isDirectory (.inside directory) = true) (piece : List Char)
    (bytes : List UInt8) (place : Place)
    : isDirectory ⟨putFile (directory ++ [piece]) bytes tree.files⟩ place =
        tree.isDirectory place := by
  cases place with
  | outside => rfl
  | inside above =>
      let passes := fun names : List (List Char) =>
        above.isPrefixOf names && decide (above.length < names.length)
      have hfiles := any_putFile (directory ++ [piece]) bytes tree.files passes
      by_cases hpasses : passes (directory ++ [piece]) = true
      · have hparts := hpasses
        simp only [passes, Bool.and_eq_true, List.isPrefixOf_iff_prefix, decide_eq_true_eq]
          at hparts
        obtain ⟨hbegins, hlength⟩ := hparts
        have habove : tree.isDirectory (.inside above) = true := by
          rcases List.prefix_concat_iff.mp hbegins with rfl | hbegins
          · exact absurd hlength (Nat.lt_irrefl _)
          · exact isDirectory_of_prefix hbegins hdirectory
        rw [habove, isDirectory, hfiles, hpasses, Bool.true_or, Bool.or_true]
      · rw [isDirectory, hfiles, (Bool.not_eq_true _).mp hpasses, Bool.false_or]
        rfl

/-- A file can be read under the path under which it was written, and nothing else changes. -/
theorem updates_of_write (h : tree.write p bytes = .ok after)
    : tree.Updates p bytes after := by
  obtain ⟨names, htarget, h⟩ := exists_of_bind_eq_ok h
  cases h
  obtain ⟨origin, parents, directory, piece, hstart, hwalk, hdirectory, hstep, rfl⟩ :=
    exists_of_target htarget
  have hdirectories := isDirectory_putFile hdirectory piece bytes
  have hplace
      : place ⟨putFile (directory ++ [piece]) bytes tree.files⟩ p =
          .ok (.inside (directory ++ [piece])) := by
    rw [place, hstart]
    change walk _ origin (parents ++ [piece]) = _
    rw [walk_append (walk_of_isDirectory_eq hdirectories hwalk), walk, hdirectories,
      if_pos hdirectory, hstep]
    rfl
  refine ⟨?_, fun other hother => ?_, hdirectories⟩
  · have hcontent
        : content? ⟨putFile (directory ++ [piece]) bytes tree.files⟩
              (.inside (directory ++ [piece])) = some bytes := by
      rw [content?, find?_putFile]
      rfl
    rw [read, hplace]
    dsimp only [Bind.bind, Except.bind]
    rw [hcontent]
    rfl
  · cases other with
    | outside => rfl
    | inside others =>
        have hne : others ≠ directory ++ [piece] := by
          rintro rfl
          exact hother hplace
        rw [content?, content?, find?_putFile_of_ne hne]

end BenchLog.FileTree
