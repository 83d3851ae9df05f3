import Mathlib.Data.List.DropRight
import BenchLog.Mode
import BenchLog.Proofs.Point.Shape

/-! Paths by the steps they take.
A path that names a file takes the steps to a directory and one more, and another name replaces
that one alone. A word in front of the name, or of a path without a name, shows in the steps, so
that neither two words nor two files come together.
-/

namespace BenchLog.Path

-----------------------------------------------------------------------------------------
-- The parts of a text
-----------------------------------------------------------------------------------------

section

variable {separator : Char} {cs piece : List Char} {pieces : List (List Char)}

theorem splitAt_eq_splitOn (separator : Char) (cs : List Char)
    : splitAt separator cs = cs.splitOn separator := by
  induction cs with
  | nil => rfl
  | cons c cs ih =>
      obtain ⟨piece, pieces, hsplit⟩ :=
        List.exists_cons_of_ne_nil (List.splitOn_ne_nil separator cs)
      rw [splitAt, ih, List.splitOn_cons_eq_if_modifyHead, hsplit]
      by_cases h : c = separator <;> simp [h]

theorem joinWith_eq_intercalate (separator : Char)
    : ∀ pieces, joinWith separator pieces = [separator].intercalate pieces
  | [] => rfl
  | [piece] => by simp [joinWith]
  | piece :: next :: pieces => by
      rw [joinWith, joinWith_eq_intercalate separator (next :: pieces),
        List.intercalate_cons_cons, List.append_assoc, List.singleton_append]
      simp

theorem splitAt_joinWith (clean : ∀ piece ∈ pieces, separator ∉ piece) (nonempty : pieces ≠ [])
    : splitAt separator (joinWith separator pieces) = pieces := by
  rw [splitAt_eq_splitOn, joinWith_eq_intercalate,
    List.splitOn_intercalate separator clean nonempty]

theorem splitAt_ne_nil (separator : Char) (cs : List Char)
    : splitAt separator cs ≠ [] := by
  rw [splitAt_eq_splitOn]
  exact List.splitOn_ne_nil separator cs

theorem splitAt_separator_cons (separator : Char) (cs : List Char)
    : splitAt separator (separator :: cs) = [] :: splitAt separator cs :=
  if_pos rfl

/-- What has no separator in it joins the first part, by induction along it. -/
theorem splitAt_append (h : separator ∉ piece) {first : List Char}
    (hsplit : splitAt separator cs = first :: pieces)
    : splitAt separator (piece ++ cs) = (piece ++ first) :: pieces := by
  induction piece with
  | nil => exact hsplit
  | cons c piece ih =>
      obtain ⟨hc, hrest⟩ := List.ne_and_not_mem_of_not_mem_cons h
      rw [List.cons_append, splitAt, if_neg (Ne.symm hc), ih hrest]
      rfl

/-- The separator is in no part, by induction along the text. -/
theorem not_mem_of_mem_splitAt (h : piece ∈ splitAt separator cs)
    : separator ∉ piece := by
  induction cs generalizing piece with
  | nil =>
      obtain rfl := List.mem_singleton.mp h
      exact List.not_mem_nil
  | cons c cs ih =>
      obtain ⟨first, rest, hsplit⟩ := List.exists_cons_of_ne_nil (splitAt_ne_nil separator cs)
      rw [hsplit] at ih
      rw [splitAt, hsplit] at h
      by_cases hc : c = separator
      · rw [if_pos hc] at h
        rcases List.mem_cons.mp h with rfl | h
        · exact List.not_mem_nil
        · exact ih h
      · rw [if_neg hc] at h
        rcases List.mem_cons.mp h with rfl | h
        · exact List.not_mem_cons_of_ne_of_not_mem (Ne.symm hc) (ih List.mem_cons_self)
        · exact ih (List.mem_cons_of_mem first h)

end

-----------------------------------------------------------------------------------------
-- Anchors
-----------------------------------------------------------------------------------------

section

variable {anchor : Anchor} {pieces : List (List Char)} {piece : List Char} {p : Path}

/-- The parts may follow the anchor: no separator is in them, and where there is no anchor the
first one is not taken for one. -/
structure Follows (anchor : Anchor) (pieces : List (List Char)) : Prop where
  clean : ∀ piece ∈ pieces, '/' ∉ piece
  nonempty : anchor ≠ .here → pieces ≠ []
  no_dot : anchor = .none → pieces.head? ≠ some ['.']
  no_slash : anchor = .none → pieces.head? = some [] → pieces = [[]]

/-- The anchor of a path and its parts, by the first part of its text. -/
theorem follows_anchored (p : Path)
    : Follows p.anchored.1 p.anchored.2 := by
  have hclean : ∀ piece ∈ splitAt '/' p.text.toList, '/' ∉ piece :=
    fun _ h => not_mem_of_mem_splitAt h
  have hne := splitAt_ne_nil '/' p.text.toList
  unfold anchored
  generalize splitAt '/' p.text.toList = pieces at *
  split
  · next piece pieces =>
      exact ⟨fun _ h => hclean _ (List.mem_cons_of_mem _ h), by simp, by simp, by simp⟩
  · exact ⟨fun _ h => hclean _ (List.mem_cons_of_mem _ h), by simp, by simp, by simp⟩
  · next hroot hhere =>
      refine ⟨hclean, fun _ => hne, fun _ h => ?_, fun _ h => ?_⟩
      · obtain ⟨rest, rfl⟩ := List.head?_eq_some_iff.mp h
        exact hhere rest rfl
      · obtain ⟨rest, rfl⟩ := List.head?_eq_some_iff.mp h
        cases rest with
        | nil => rfl
        | cons next rest => exact absurd rfl (hroot next rest)

/-- What is written after an anchor is found there. -/
theorem anchored_anchoredText (h : Follows anchor pieces)
    : anchored ⟨String.ofList (anchoredText anchor pieces)⟩ = (anchor, pieces) := by
  unfold anchored
  rw [String.toList_ofList]
  cases anchor with
  | none =>
      rw [anchoredText, splitAt_joinWith h.clean (h.nonempty (by simp))]
      split
      · next next rest => cases h.no_slash rfl rfl
      · exact absurd rfl (h.no_dot rfl)
      · rfl
  | root =>
      rw [anchoredText, splitAt_separator_cons, splitAt_joinWith h.clean (h.nonempty (by simp))]
      cases pieces with
      | nil => exact absurd rfl (h.nonempty (by simp))
      | cons piece pieces => rfl
  | here =>
      cases pieces with
      | nil => rfl
      | cons piece pieces =>
          have hsplit
              : splitAt '/' ('/' :: joinWith '/' (piece :: pieces)) = [] :: piece :: pieces := by
            rw [splitAt_separator_cons, splitAt_joinWith h.clean (by simp)]
          rw [anchoredText, ← List.singleton_append, splitAt_append (by decide) hsplit]
          · rfl
          · simp

end

-----------------------------------------------------------------------------------------
-- Steps
-----------------------------------------------------------------------------------------

/-- A part that names a file or a directory. -/
structure IsName (piece : List Char) : Prop where
  busy : isIdle piece = false
  ne_up : piece ≠ up
  clean : '/' ∉ piece

section

variable {piece name : List Char} {p : Path}

theorem steps_append (pieces more : List (List Char))
    : steps (pieces ++ more) = steps pieces ++ steps more := by
  simp [steps]

theorem steps_singleton (busy : isIdle piece = false)
    : steps [piece] = [step piece] := by
  simp [steps, busy]

theorem IsName.step_eq (h : IsName name)
    : step name = .name name :=
  if_neg h.ne_up

theorem isIdle_iff
    : isIdle piece = true ↔ piece = [] ∨ piece = ['.'] := by
  simp [isIdle]

theorem isIdle_eq_false_iff
    : isIdle piece = false ↔ piece ≠ [] ∧ piece ≠ ['.'] := by
  simp [isIdle]

theorem dropIdleEnd_eq_rdropWhile (pieces : List (List Char))
    : dropIdleEnd pieces = pieces.rdropWhile isIdle :=
  rfl

/-- Idle parts at the end are no steps, by induction from there. -/
theorem steps_dropIdleEnd (pieces : List (List Char))
    : steps (dropIdleEnd pieces) = steps pieces := by
  induction pieces using List.reverseRecOn with
  | nil => rfl
  | append_singleton pieces piece ih =>
      rw [dropIdleEnd_eq_rdropWhile, List.rdropWhile_concat]
      split
      · next hidle =>
          rw [← dropIdleEnd_eq_rdropWhile, ih]
          simp [steps, hidle]
      · rfl

/-- The parts that are kept end in one that leads somewhere, if there are any. -/
theorem dropIdleEnd_cases (pieces : List (List Char))
    : dropIdleEnd pieces = []
      ∨ ∃ front last, dropIdleEnd pieces = front ++ [last] ∧ isIdle last = false := by
  induction pieces using List.reverseRecOn with
  | nil => exact Or.inl rfl
  | append_singleton pieces piece ih =>
      rw [dropIdleEnd_eq_rdropWhile, List.rdropWhile_concat]
      split
      · exact ih
      · next hbusy => exact Or.inr ⟨pieces, piece, rfl, by simpa using hbusy⟩

-----------------------------------------------------------------------------------------
-- The name of a file
-----------------------------------------------------------------------------------------

/-- A file is named by the last step. -/
theorem fileName?_eq_some_iff
    : p.fileName? = some name ↔ p.components.getLast? = some (.name name) := by
  rw [components, ← steps_dropIdleEnd, fileName?]
  rcases dropIdleEnd_cases p.anchored.2 with hnone | ⟨front, last, hkept, hbusy⟩
  · rw [hnone]
    cases p.anchored.1 <;> simp [Anchor.steps, steps]
  · rw [hkept, steps_append, steps_singleton hbusy, ← List.append_assoc, List.getLast?_concat,
      List.getLast?_concat, Option.filter_some, step]
    by_cases hup : last = up <;> simp [hup]

theorem dropIdleEnd_prefix_self (pieces : List (List Char))
    : dropIdleEnd pieces <+: pieces :=
  List.rdropWhile_prefix isIdle pieces

theorem directory_prefix_anchored (p : Path)
    : p.directory <+: p.anchored.2 :=
  ((dropIdleEnd_prefix_self _).trans (List.dropLast_prefix _)).trans (dropIdleEnd_prefix_self _)

/-- The steps of a path that names a file are those of its directory and the name. -/
theorem components_of_fileName? (h : p.fileName? = some name)
    : IsName name
      ∧ p.components = p.anchored.1.steps ++ steps p.directory ++ [.name name] := by
  obtain ⟨hlast, hup⟩ := Option.filter_eq_some_iff.mp h
  rcases dropIdleEnd_cases p.anchored.2 with hnone | ⟨front, last, hkept, hbusy⟩
  · rw [hnone] at hlast
    cases hlast
  · rw [hkept, List.getLast?_concat, Option.some.injEq] at hlast
    subst hlast
    have hmem : last ∈ p.anchored.2 := by
      apply (dropIdleEnd_prefix_self _).mem
      rw [hkept]
      exact List.mem_append_right front (List.mem_singleton_self last)
    have hname : IsName last := ⟨hbusy, by simpa using hup, (follows_anchored p).clean _ hmem⟩
    refine ⟨hname, ?_⟩
    rw [components, ← steps_dropIdleEnd p.anchored.2, directory, hkept, List.dropLast_concat,
      steps_append, steps_singleton hbusy, hname.step_eq, steps_dropIdleEnd, List.append_assoc]

/-- After the directory of a path any name may follow. -/
theorem follows_directory (p : Path) (h : IsName name)
    : Follows p.anchored.1 (p.directory ++ [name]) := by
  have hfollows := follows_anchored p
  obtain ⟨hempty, hdot⟩ := isIdle_eq_false_iff.mp h.busy
  have hhead : p.directory = [] ∨ (p.directory ++ [name]).head? = p.anchored.2.head? := by
    obtain ⟨rest, hrest⟩ := directory_prefix_anchored p
    rw [← hrest]
    cases p.directory <;> simp
  refine ⟨fun piece hpiece => ?_, by simp, fun hanchor => ?_, fun hanchor hslash => ?_⟩
  · rcases List.mem_append.mp hpiece with hpiece | hpiece
    · exact hfollows.clean piece ((directory_prefix_anchored p).mem hpiece)
    · rw [List.mem_singleton.mp hpiece]
      exact h.clean
  · rcases hhead with hnil | hhead
    · rw [hnil]
      simpa using hdot
    · rw [hhead]
      exact hfollows.no_dot hanchor
  · have hnil : p.directory = [] := by
      rcases hhead with hnil | hhead
      · exact hnil
      · -- The empty part is all there is, and then it is no directory.
        rw [directory, hfollows.no_slash hanchor (hhead ▸ hslash)]
        rfl
    rw [hnil] at hslash
    exact absurd (Option.some.inj hslash) hempty

/-- Another name replaces the last step. -/
theorem components_withFileName {other : List Char} (h : p.fileName? = some name)
    (hother : IsName other)
    : (p.withFileName other).components = p.components.dropLast ++ [.name other] := by
  rw [withFileName, components, anchored_anchoredText (follows_directory p hother),
    (components_of_fileName? h).2, List.dropLast_concat, steps_append,
    steps_singleton hother.busy, hother.step_eq, List.append_assoc]

end

-----------------------------------------------------------------------------------------
-- A word in front
-----------------------------------------------------------------------------------------

section

variable {p q : Path} {word other : String} {name name' first : List Char}
  {rest : List (List Char)}

/-- A word and an underscore make a name of whatever follows. -/
theorem isName_leading (hword : '/' ∉ word.toList) (hname : '/' ∉ name)
    : IsName (word.toList ++ '_' :: name) := by
  have hmem : '_' ∈ word.toList ++ '_' :: name :=
    List.mem_append_right _ List.mem_cons_self
  have hne {piece : List Char} (h : '_' ∉ piece) : word.toList ++ '_' :: name ≠ piece :=
    fun heq => h (heq ▸ hmem)
  exact ⟨isIdle_eq_false_iff.mpr ⟨hne (by decide), hne (by decide)⟩, hne (by decide),
    by simp [hword, hname]⟩

theorem components_eq_of_fileName? (h : p.fileName? = some name)
    : p.components = p.components.dropLast ++ [.name name] := by
  rw [(components_of_fileName? h).2, List.dropLast_concat]

/-- The word comes in front of the last step, if that is a name. -/
theorem components_withLeadingWord (hword : '/' ∉ word.toList) (h : p.fileName? = some name)
    : (p.withLeadingWord word).components =
        p.components.dropLast ++ [.name (word.toList ++ '_' :: name)] := by
  have hname := isName_leading hword (components_of_fileName? h).1.clean
  rw [← components_withFileName h hname]
  simp [withLeadingWord, h]

/-- A first part that leads somewhere is no anchor. -/
theorem anchored_of_busy (hsplit : splitAt '/' p.text.toList = first :: rest)
    (busy : isIdle first = false)
    : p.anchored = (.none, first :: rest) := by
  unfold anchored
  rw [hsplit]
  split
  · next heq =>
      obtain ⟨rfl, -⟩ := List.cons.inj heq
      cases busy
  · next heq =>
      obtain ⟨rfl, -⟩ := List.cons.inj heq
      cases busy
  · rfl

theorem components_of_busy (hsplit : splitAt '/' p.text.toList = first :: rest)
    (busy : isIdle first = false)
    : p.components = step first :: steps rest := by
  rw [components, anchored_of_busy hsplit busy, ← List.singleton_append, steps_append,
    steps_singleton busy]
  rfl

/-- The word comes in front of all the text otherwise, and makes a name of the first part. -/
theorem components_withLeadingWord_of_none (hword : '/' ∉ word.toList) (h : p.fileName? = none)
    (hsplit : splitAt '/' p.text.toList = first :: rest)
    : (p.withLeadingWord word).components =
        .name (word.toList ++ '_' :: first) :: steps rest := by
  have hname : IsName (word.toList ++ '_' :: first) :=
    isName_leading hword (not_mem_of_mem_splitAt (hsplit ▸ List.mem_cons_self))
  have hpieces : splitAt '/' (p.withLeadingWord word).text.toList =
      (word.toList ++ '_' :: first) :: rest := by
    have hclean : '/' ∉ word.toList ++ ['_'] := by simpa using hword
    simpa [withLeadingWord, h] using splitAt_append hclean hsplit
  rw [components_of_busy hpieces hname.busy, hname.step_eq]

/-- A path that begins with a name begins with its first part. -/
theorem eq_first_of_components_eq (hsplit : splitAt '/' p.text.toList = first :: rest)
    {more : List Component} (h : p.components = .name name :: more)
    : name = first := by
  cases busy : isIdle first with
  | false =>
      rw [components_of_busy hsplit busy, step] at h
      by_cases hup : first = up <;> simp_all
  | true =>
      -- An empty part or a dot is an anchor, or the text is empty and there is no step.
      rw [components, anchored, hsplit] at h
      rcases isIdle_iff.mp busy with rfl | rfl
      · cases rest <;> cases h
      · cases h

/-- The place of the word among the steps does not depend on the word, and what it comes in front
of is all that the path itself has there. -/
theorem exists_components_withLeadingWord (p : Path)
    : ∃ front name back,
        (∀ word, '/' ∉ word.toList
          → (p.withLeadingWord word).components =
              front ++ .name (word.toList ++ '_' :: name) :: back)
        ∧ ∀ text, p.components = front ++ .name text :: back → text = name := by
  cases h : p.fileName? with
  | some name =>
      refine ⟨p.components.dropLast, name, [], fun word hword =>
        components_withLeadingWord hword h, fun text htext => ?_⟩
      rw [components_eq_of_fileName? h, List.dropLast_concat] at htext
      simpa using htext.symm
  | none =>
      obtain ⟨first, rest, hsplit⟩ :=
        List.exists_cons_of_ne_nil (splitAt_ne_nil '/' p.text.toList)
      exact ⟨[], first, steps rest, fun word hword =>
        components_withLeadingWord_of_none hword h hsplit, fun text htext =>
        eq_first_of_components_eq hsplit htext⟩

theorem components_withLeadingWord_ne (p : Path) (hword : '/' ∉ word.toList)
    : (p.withLeadingWord word).components ≠ p.components := by
  obtain ⟨front, name, back, hleading, hself⟩ := exists_components_withLeadingWord p
  intro h
  have hlength := congrArg List.length (hself _ (h ▸ hleading word hword))
  rw [List.length_append, List.length_cons] at hlength
  omega

theorem eq_of_components_withLeadingWord_eq (hword : '/' ∉ word.toList)
    (hother : '/' ∉ other.toList)
    (h : (p.withLeadingWord word).components = (p.withLeadingWord other).components)
    : word = other := by
  obtain ⟨front, name, back, hleading, -⟩ := exists_components_withLeadingWord p
  rw [hleading word hword, hleading other hother] at h
  exact String.toList_inj.mp (by simpa using h)

/-- Of paths that name files, the word and the path can be read back from the steps, if no
underscore is in the word. -/
theorem components_withLeadingWord_eq_iff (hword : '/' ∉ word.toList ∧ '_' ∉ word.toList)
    (hother : '/' ∉ other.toList ∧ '_' ∉ other.toList) (hp : p.fileName? = some name)
    (hq : q.fileName? = some name')
    : (p.withLeadingWord word).components = (q.withLeadingWord other).components
      ↔ word = other ∧ p.components = q.components := by
  rw [components_withLeadingWord hword.1 hp, components_withLeadingWord hother.1 hq]
  constructor
  · intro h
    obtain ⟨hfront, hlast⟩ := List.append_inj' h rfl
    rw [List.singleton_inj, Component.name.injEq] at hlast
    obtain ⟨hsame, rfl⟩ := PointLine.append_cons_inj_of_not_mem hword.2 hother.2 hlast
    refine ⟨String.toList_inj.mp hsame, ?_⟩
    rw [components_eq_of_fileName? hp, components_eq_of_fileName? hq, hfront]
  · rintro ⟨rfl, h⟩
    have hname := fileName?_eq_some_iff.mp hp
    rw [h, fileName?_eq_some_iff.mp hq] at hname
    cases hname
    rw [h]

end

end BenchLog.Path

-----------------------------------------------------------------------------------------
-- Summaries
-----------------------------------------------------------------------------------------

namespace BenchLog.Mode

variable {m n : Mode} {p : Path} {name : List Char}

theorem name_clean (m : Mode)
    : '/' ∉ m.name.toList ∧ '_' ∉ m.name.toList := by
  cases m <;> decide

theorem name_inj
    : m.name = n.name ↔ m = n := by
  cases m <;> cases n <;> decide

/-- The summary of a file is in its directory, under its name with the mode in front. -/
theorem directory_and_fileName?_path (m : Mode) (h : p.fileName? = some name)
    : (m.path p).components.dropLast = p.components.dropLast
      ∧ (m.path p).fileName? = some (m.name.toList ++ '_' :: name) := by
  have hcomponents := Path.components_withLeadingWord m.name_clean.1 h
  rw [Path.fileName?_eq_some_iff, path, hcomponents]
  exact ⟨List.dropLast_concat, List.getLast?_concat⟩

/-- Paths here are the same when they take the same steps.
The summary of a file is in the directory of the file, under its name with the mode in front, and
two summaries are the same only if the modes are and the files are. Of any path, named or not, the
summaries by two modes differ, and from the path itself. -/
theorem paths_apart (m : Mode) (p : Path)
    : (∀ name, p.components.getLast? = some (.name name)
        → (m.path p).components.dropLast = p.components.dropLast
          ∧ (m.path p).fileName? = some (m.name.toList ++ '_' :: name)
          ∧ ∀ n q, (∃ name', q.components.getLast? = some (.name name'))
              → ((m.path p).components = (n.path q).components
                ↔ m = n ∧ p.components = q.components))
      ∧ (m.path p).components ≠ p.components
      ∧ ∀ n, m ≠ n → (m.path p).components ≠ (n.path p).components := by
  refine ⟨fun name h => ?_, Path.components_withLeadingWord_ne p m.name_clean.1,
    fun n hne heq => ?_⟩
  · have hp := Path.fileName?_eq_some_iff.mpr h
    obtain ⟨hdirectory, hname⟩ := directory_and_fileName?_path m hp
    refine ⟨hdirectory, hname, fun n q ⟨name', h'⟩ => ?_⟩
    have hq := Path.fileName?_eq_some_iff.mpr h'
    rw [← name_inj]
    exact Path.components_withLeadingWord_eq_iff m.name_clean n.name_clean hp hq
  · exact hne (name_inj.mp
      (Path.eq_of_components_withLeadingWord_eq m.name_clean.1 n.name_clean.1 heq))

/-- A file that is written with idle parts. -/
theorem paths_apart_idle
    : (Mode.min.path ⟨"logs//./run.log/."⟩).components.dropLast = [.name "logs".toList]
      ∧ (Mode.min.path ⟨"logs//./run.log/."⟩).fileName? = some "min_run.log".toList
      ∧ (Mode.min.path ⟨"logs//./run.log/."⟩).components =
          (Mode.min.path ⟨"logs/run.log"⟩).components
      ∧ (Mode.min.path ⟨"logs//./run.log/."⟩).components ≠
          (Mode.max.path ⟨"logs//./run.log/."⟩).components := by
  obtain ⟨hnamed, -, hmodes⟩ := paths_apart .min ⟨"logs//./run.log/."⟩
  obtain ⟨hdirectory, hname, hsame⟩ := hnamed "run.log".toList (by decide +kernel)
  refine ⟨hdirectory.trans (by decide +kernel), hname.trans (by decide +kernel), ?_,
    hmodes .max (by decide)⟩
  exact (hsame .min ⟨"logs/run.log"⟩ ⟨"run.log".toList, by decide +kernel⟩).mpr
    ⟨rfl, by decide +kernel⟩

-- A path that names no file gets the mode at its start, wherever that leads.
example : Mode.avg.path ⟨"a/.."⟩ = ⟨"avg_a/.."⟩ := by decide +kernel

end BenchLog.Mode
