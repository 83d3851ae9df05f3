import BenchLog.Text.Lines

/-! Lines that are written one after the other and split again.
A line feed separates what is before it from what is after it, so that the lines of a text are those
of its parts; a single line comes back but for a return at its end.
-/

namespace BenchLog.Text

section Split

variable {α : Type} [DecidableEq α] {feed ret : α}

theorem splitLines_feed_cons (cs : List α)
    : splitLines feed ret (feed :: cs) = [] :: splitLines feed ret cs := by
  cases cs with
  | nil => simp [splitLines]
  | cons d cs => simp [splitLines]

theorem splitLines_ret_feed_cons (h : ret ≠ feed) (cs : List α)
    : splitLines feed ret (ret :: feed :: cs) = [] :: splitLines feed ret cs := by
  simp [splitLines, h]

/-- Any other first element is the first one of the first line. -/
theorem splitLines_cons {c : α} {cs : List α} (hc : c ≠ feed)
    (hr : ¬ (c = ret ∧ cs.head? = some feed))
    : splitLines feed ret (c :: cs) =
        (c :: (splitLines feed ret cs).headD []) :: (splitLines feed ret cs).tail := by
  cases cs with
  | nil => simp [splitLines, hc]
  | cons d cs =>
      simp only [List.head?_cons, Option.some.injEq] at hr
      rw [splitLines, if_neg hc, if_neg hr]
      cases splitLines feed ret (d :: cs) with
      | nil => rfl
      | cons line lines => rfl

theorem splitLines_ne_nil {cs : List α} (h : cs ≠ [])
    : splitLines feed ret cs ≠ [] := by
  fun_cases splitLines feed ret cs with
  | case1 => exact absurd rfl h
  | _ => simp

/-- A feed separates the lines before it from those after it, by induction along the split. -/
theorem splitLines_append_feed
    : ∀ cs ds : List α,
        splitLines feed ret (cs ++ feed :: ds) =
          splitLines feed ret (cs ++ [feed]) ++ splitLines feed ret ds
  | [], ds => by
      rw [List.nil_append, List.nil_append, splitLines_feed_cons, splitLines_feed_cons]
      rfl
  | c :: cs, ds => by
      by_cases hc : c = feed
      · rw [hc]
        simp only [List.cons_append, splitLines_feed_cons, splitLines_append_feed cs ds]
      by_cases hr : c = ret ∧ (cs ++ [feed]).head? = some feed
      · have hret : ret ≠ feed := hr.1 ▸ hc
        rw [hr.1]
        cases cs with
        | nil => simp [splitLines_ret_feed_cons hret, splitLines]
        | cons d cs =>
            have hd : d = feed := by simpa using hr.2
            simp only [hd, List.cons_append, splitLines_ret_feed_cons hret,
              splitLines_append_feed cs ds]
      · have hr' : ¬ (c = ret ∧ (cs ++ feed :: ds).head? = some feed) := by
          simpa [List.head?_append] using hr
        rw [List.cons_append, List.cons_append, splitLines_cons hc hr, splitLines_cons hc hr',
          splitLines_append_feed cs ds]
        have hne : splitLines feed ret (cs ++ [feed]) ≠ [] := splitLines_ne_nil (by simp)
        obtain ⟨line, lines, he⟩ := List.exists_cons_of_ne_nil hne
        rw [he]
        rfl

/-- A line that is ended by a feed is the only line, without the return at its end if it has one. -/
theorem splitLines_singleton {cs : List α} (h : feed ∉ cs)
    : ∃ line, splitLines feed ret (cs ++ [feed]) = [line] ∧ (line = cs ∨ cs = line ++ [ret]) := by
  induction cs with
  | nil => exact ⟨[], by simp [splitLines], Or.inl rfl⟩
  | cons c cs ih =>
      simp only [List.mem_cons, not_or] at h
      obtain ⟨hc, hcs⟩ := h
      by_cases hr : c = ret ∧ (cs ++ [feed]).head? = some feed
      · obtain ⟨rfl, hhead⟩ := hr
        cases cs with
        | nil => exact ⟨[], by simp [splitLines_ret_feed_cons (Ne.symm hc), splitLines], by simp⟩
        | cons d cs => simp_all
      · obtain ⟨line, hline, hret⟩ := ih hcs
        refine ⟨c :: line, ?_, hret.imp (congrArg (c :: ·)) (congrArg (c :: ·))⟩
        rw [List.cons_append, splitLines_cons (Ne.symm hc) hr, hline]
        rfl

/-- Lines that are ended by a feed each are split into what they were. -/
theorem splitLines_flatMap {ls : List (List α)}
    (h : ∀ line ∈ ls, feed ∉ line ∧ line.getLast? ≠ some ret)
    : splitLines feed ret (ls.flatMap (· ++ [feed])) = ls := by
  induction ls with
  | nil => rfl
  | cons line ls ih =>
      obtain ⟨⟨hfeed, hret⟩, hrest⟩ := List.forall_mem_cons.mp h
      have hsingle
          : ∃ found,
              splitLines feed ret (line ++ [feed]) = [found] ∧ (found = line ∨ line = found ++ [ret]) :=
        splitLines_singleton hfeed
      obtain ⟨found, hfound, hline⟩ := hsingle
      have hsame : found = line := by
        rcases hline with hline | hline
        · exact hline
        · simp [hline] at hret
      rw [List.flatMap_cons, List.append_assoc, List.singleton_append, splitLines_append_feed,
        hfound, ih hrest, hsame]
      rfl

end Split

/-- Lines in a text, each ended by a line feed, come back as they are, but that the first one may
lose a return at its end. -/
theorem lines_join {first : String} {ls : List String} (hfirst : '\n' ∉ first.toList)
    (h : ∀ line ∈ ls, '\n' ∉ line.toList ∧ line.toList.getLast? ≠ some '\r')
    : ∃ found,
        lines (String.join ((first :: ls).map (· ++ "\n"))) = found :: ls
        ∧ (found = first ∨ first.toList = found.toList ++ ['\r']) := by
  have htext
      : (String.join ((first :: ls).map (· ++ "\n"))).toList =
          first.toList ++ '\n' :: (ls.map String.toList).flatMap (· ++ ['\n']) := by
    rw [String.toList_join, List.flatMap_map, List.flatMap_map, List.flatMap_cons]
    simp
  have hls : ∀ cs ∈ ls.map String.toList, '\n' ∉ cs ∧ cs.getLast? ≠ some '\r' :=
    List.forall_mem_map.mpr h
  have hsingle
      : ∃ found,
          splitLines '\n' '\r' (first.toList ++ ['\n']) = [found]
          ∧ (found = first.toList ∨ first.toList = found ++ ['\r']) :=
    splitLines_singleton hfirst
  obtain ⟨found, hfound, hsame⟩ := hsingle
  refine ⟨String.ofList found, ?_, ?_⟩
  · rw [lines, htext, splitLines_append_feed, hfound, splitLines_flatMap hls]
    simp [Function.comp_def]
  · rw [String.toList_ofList]
    exact hsame.imp_left fun he => by rw [he, String.ofList_toList]

/-- Lines that end in no return come back from a text as they are. -/
theorem lines_join_eq {ls : List String}
    (h : ∀ line ∈ ls, '\n' ∉ line.toList ∧ line.toList.getLast? ≠ some '\r')
    : lines (String.join (ls.map (· ++ "\n"))) = ls := by
  cases ls with
  | nil => rfl
  | cons first ls =>
      obtain ⟨⟨hfeed, hreturn⟩, hrest⟩ := List.forall_mem_cons.mp h
      obtain ⟨found, hlines, hsame | hsame⟩ := lines_join hfeed hrest
      · rw [hlines, hsame]
      · exact absurd (by rw [hsame, List.getLast?_concat]) hreturn

end BenchLog.Text
