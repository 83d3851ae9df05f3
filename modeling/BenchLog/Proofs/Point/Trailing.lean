import BenchLog.Proofs.Point.RoundTrip

/-! Text after the line of a point.
It is passed over as long as no bracket closes in it. The last bracket that closes ends an output, so
that the one that is read, or the input before it, goes on beyond what was written.
-/

namespace BenchLog.Point

open PointLine

/-- With a closing bracket after the line another point comes back: it has the written numbers, and
its input or, beside the written input, its output is longer. -/
theorem exists_longer_of_bracket {p : Point} (h : p.Legible) (ht : p.TrimmedTexts) {t : String}
    (hplain : '\n' ∉ t.toList) (hbracket : ']' ∈ t.toList)
    : ∃ q,
        Recognition.ofLine (p.line ++ t) = .accepted q
        ∧ q.benchmark = p.benchmark
        ∧ q.processors = p.processors
        ∧ q.time = p.time
        ∧ (p.inputParams.toList.length < q.inputParams.toList.length
          ∨ q.inputParams = p.inputParams
            ∧ p.outputData.toList.length < q.outputData.toList.length) := by
  obtain ⟨before, after, hsplit⟩ := List.append_of_mem hbracket
  rw [hsplit, List.mem_append, List.mem_cons, not_or, not_or] at hplain
  obtain ⟨hbefore, -, hafter⟩ := hplain
  have hwritten
      : Splits (p.line ++ t).toList
          { ofPoint p with output := p.outputData.toList ++ ']' :: before } := by
    rw [String.toList_append, hsplit]
    exact (splits_line_append_iff h.benchmark).mpr
      ⟨⟨rfl, rfl, rfl, rfl⟩, fieldsOf_bracketed_append h.inputParams h.outputData hbefore hafter⟩
  obtain ⟨f, hf⟩ := Recognition.exists_decides hwritten
  have hread
      : FieldsOf (bracketed p.inputParams.toList p.outputData.toList ++ t.toList) f.input f.output := by
    have hsplits := hf.1
    rw [String.toList_append] at hsplits
    exact ((splits_line_append_iff h.benchmark).mp hsplits).2
  simp only [bracketed, List.append_assoc, List.cons_append, List.nil_append] at hread
  refine ⟨_, ofLine_line_append_of_decides h.benchmark hf, trim_of_trimmed ht.benchmark, rfl, rfl, ?_⟩
  rcases hf.2 _ hwritten with hl | ⟨hl, hle⟩
  · exact Or.inl (length_lt_trim ht.inputParams (prefix_of_longer hread hl))
  · obtain ⟨hinput, -, w, rest, -, -, houtput⟩ := hread.outputOf_of_length_eq hl.symm
    refine Or.inr ⟨?_, length_lt_trim ht.outputData ?_⟩
    · rw [single, ofCount, hinput, String.ofList_toList]
      exact trim_of_trimmed ht.inputParams
    · -- the output that is read and the written one with its bracket begin the same text
      have hpre : f.output <+: p.outputData.toList ++ ']' :: t.toList := by
        rw [houtput]
        exact List.prefix_append _ _
      have hown : p.outputData.toList ++ [']'] <+: p.outputData.toList ++ ']' :: t.toList :=
        ⟨t.toList, by simp⟩
      apply List.prefix_of_prefix_length_le hown hpre
      simp only [List.length_append, List.length_cons, List.length_nil] at hle ⊢
      omega

/-- What stands after the line of a point makes no difference exactly if no bracket closes in it.
Otherwise a point is still read and nothing is reported, but its output or its input is not the
written one. -/
theorem Legible.ofLine_line_append_iff {p : Point} (h : p.Legible) (ht : p.TrimmedTexts)
    {t : String} (hplain : '\n' ∉ t.toList)
    : (Recognition.ofLine (p.line ++ t) = Recognition.ofLine p.line ↔ ']' ∉ t.toList)
      ∧ Recognition.ofLine p.line =
          .accepted { p with count := 1, minTime := p.time, maxTime := p.time }
      ∧ (']' ∈ t.toList →
          ∃ q,
            Recognition.ofLine (p.line ++ t) = .accepted q
            ∧ q.benchmark = p.benchmark
            ∧ q.processors = p.processors
            ∧ q.time = p.time
            ∧ (q.outputData ≠ p.outputData ∨ q.inputParams ≠ p.inputParams)) := by
  have hother
      : ']' ∈ t.toList →
          ∃ q,
            Recognition.ofLine (p.line ++ t) = .accepted q
            ∧ q.benchmark = p.benchmark
            ∧ q.processors = p.processors
            ∧ q.time = p.time
            ∧ (q.outputData ≠ p.outputData ∨ q.inputParams ≠ p.inputParams) := by
    intro hbracket
    obtain ⟨q, hq, hbenchmark, hprocessors, htime, hlonger⟩ :=
      exists_longer_of_bracket h ht hplain hbracket
    refine ⟨q, hq, hbenchmark, hprocessors, htime, ?_⟩
    rcases hlonger with hinput | ⟨-, houtput⟩
    · exact Or.inr fun he => absurd (he ▸ rfl) hinput.ne
    · exact Or.inl fun he => absurd (he ▸ rfl) houtput.ne
  refine ⟨⟨fun hsame hbracket => ?_, fun hbracket => ?_⟩, h.ofLine_line ht, hother⟩
  · obtain ⟨q, hq, -, -, -, hdiffers⟩ := hother hbracket
    rw [hq, h.ofLine_line ht] at hsame
    obtain rfl := Recognition.accepted.inj hsame
    rcases hdiffers with hne | hne
    · exact hne rfl
    · exact hne rfl
  · rw [h.ofLine_line_append ht hplain hbracket, h.ofLine_line ht]

/-- An opened bracket after the line is passed over; once it is closed it is read as the output, and
what was written before it has become part of the input. -/
theorem ofLine_line_append_closed
    : let p := single "fib" 4 0.5 "in" "a]"
      p.Legible
      ∧ p.TrimmedTexts
      ∧ Recognition.ofLine (p.line ++ " , [more") = Recognition.ofLine p.line
      ∧ Recognition.ofLine (p.line ++ " , [more]") ≠ Recognition.ofLine p.line
      ∧ (Recognition.ofLine (p.line ++ " , [more]")).point?.map
            (fun q => (q.inputParams, q.outputData)) =
          some ("in], [a]", "more") := by
  intro p
  have hlegible : p.Legible := ⟨by decide, by decide, by decide, by decide⟩
  have htrimmed : p.TrimmedTexts := (Built.ofCount ..).trimmedTexts
  have hopened : '\n' ∉ " , [more".toList := by decide
  have hclosed : '\n' ∉ " , [more]".toList := by decide
  refine ⟨hlegible, htrimmed, ?_, fun hsame => ?_, ?_⟩
  · exact (hlegible.ofLine_line_append_iff htrimmed hopened).1.mpr (by decide)
  · exact (hlegible.ofLine_line_append_iff htrimmed hclosed).1.mp hsame (by decide)
  · decide +kernel

end BenchLog.Point
