import BenchLog.Proofs.Point.Shape
import BenchLog.Proofs.Text.Trimmed

/-! What becomes of a line when it is read as a point.
The split that decides settles everything: a line without one is passed over in silence, and with
one it is a point or gives exactly one anomaly.
-/

namespace BenchLog.Recognition

open PointLine Decimal

theorem ofLine_of_not_splits {line : String} (h : ¬ ∃ f, Splits line.toList f)
    : ofLine line = .unrelated := by
  rw [ofLine, ofChars?_eq_none_iff.mpr h]

theorem ofLine_of_decides {line : String} {f : PointLine} (h : Decides line.toList f)
    : ofLine line = ofFields line f := by
  rw [ofLine, h.ofChars?]

theorem exists_decides {line : List Char} {g : PointLine} (h : Splits line g)
    : ∃ f, Decides line f := by
  obtain ⟨input, output, hread, -⟩ := h.ofChars?
  exact ⟨_, decides_of_ofChars? hread⟩

/-- No two splits decide, since both are the one that is read. -/
theorem decides_unique {line : List Char} {f g : PointLine} (hf : Decides line f)
    (hg : Decides line g)
    : f = g :=
  Option.some.inj (hf.ofChars?.symm.trans hg.ofChars?)

theorem ofFields_eq_accepted {line : String} {f : PointLine} {time : Float} {processors : UInt32}
    (htag : Text.trimChars f.tag = pointTag.toList)
    (htime : readFloatChars? (Text.trimChars f.time) = some time)
    (hprocessors : readWordChars? (Text.trimChars f.processors) = some processors)
    : ofFields line f =
        .accepted
          (.single (String.ofList f.benchmark) processors time (String.ofList f.input)
            (String.ofList f.output)) := by
  simp only [ofFields, htag, htime, hprocessors, ne_eq, not_true_eq_false, if_false]

/-- A point that is read stands in fields with the tag of a point and its two numbers. -/
theorem ofFields_eq_accepted_iff {line : String} {f : PointLine} {p : Point}
    : ofFields line f = .accepted p ↔
        Text.trimChars f.tag = pointTag.toList
        ∧ ∃ time processors,
            readFloatChars? (Text.trimChars f.time) = some time
            ∧ readWordChars? (Text.trimChars f.processors) = some processors
            ∧ p =
                .single (String.ofList f.benchmark) processors time (String.ofList f.input)
                  (String.ofList f.output) := by
  constructor
  · intro h
    unfold ofFields at h
    split at h
    · cases h
    · next htag =>
        dsimp only at h
        split at h
        · cases h
        · cases h
        · next time processors ht hp =>
            cases h
            exact ⟨Decidable.of_not_not htag, time, processors, ht, hp, rfl⟩
  · rintro ⟨htag, time, processors, ht, hp, rfl⟩
    exact ofFields_eq_accepted htag ht hp

/-- A point that is read comes from the fields of the split that decides. -/
theorem exists_decides_of_accepted {line : String} {p : Point} (h : ofLine line = .accepted p)
    : ∃ f,
        Decides line.toList f
        ∧ Text.trimChars f.tag = pointTag.toList
        ∧ ∃ time processors,
            p =
              .single (String.ofList f.benchmark) processors time (String.ofList f.input)
                (String.ofList f.output) := by
  by_cases hs : ∃ f, Splits line.toList f
  · obtain ⟨g, hg⟩ := hs
    obtain ⟨f, hf⟩ := exists_decides hg
    rw [ofLine_of_decides hf] at h
    obtain ⟨htag, time, processors, -, -, hp⟩ := ofFields_eq_accepted_iff.mp h
    exact ⟨f, hf, htag, time, processors, hp⟩
  · rw [ofLine_of_not_splits hs] at h
    cases h

/-- The points that are read from named lines are those that are read and name their benchmark. -/
theorem point?_ofNamedLine_iff {line : String} {p : Point}
    : (ofNamedLine line).point? = some p ↔ ofLine line = .accepted p ∧ p.isValid = true := by
  unfold ofNamedLine requireBenchmark
  cases ofLine line with
  | unrelated => simp [point?]
  | rejected d => simp [point?]
  | accepted q =>
      dsimp only
      split
      · next hvalid =>
          simp only [point?, Option.some.injEq, accepted.injEq]
          constructor
          · rintro rfl
            exact ⟨rfl, hvalid⟩
          · exact And.left
      · next hvalid =>
          constructor
          · intro he
            cases he
          · rintro ⟨⟨⟩, hq⟩
            exact absurd hq hvalid

/-- A point that is read from a line is a single observation. -/
theorem exists_single_of_point? {line : String} {p : Point}
    (h : (ofNamedLine line).point? = some p)
    : ∃ benchmark processors time inputParams outputData,
        p = .single benchmark processors time inputParams outputData := by
  obtain ⟨hread, -⟩ := point?_ofNamedLine_iff.mp h
  obtain ⟨f, -, -, time, processors, rfl⟩ := exists_decides_of_accepted hread
  exact ⟨_, _, _, _, _, rfl⟩

/-- A point is not changed when its texts are stripped before it is made. -/
theorem single_trim (benchmark : String) (processors : UInt32) (time : Float)
    (inputParams outputData : String)
    : Point.single (Text.trim benchmark) processors time (Text.trim inputParams)
        (Text.trim outputData)
      = Point.single benchmark processors time inputParams outputData := by
  simp only [Point.single, Point.ofCount, Text.trim_trim]

/-- Every line has exactly one outcome: without a split it is passed over, and otherwise one split
decides. The tag is looked at first, then the time, then the processors. -/
theorem ofLine_outcome (line : String)
    : ((¬ ∃ f, Splits line.toList f) → ofLine line = .unrelated)
      ∧ ((∃ f, Splits line.toList f) → ∃! f, Decides line.toList f)
      ∧ ∀ f, Decides line.toList f →
          (Text.trimChars f.tag ≠ pointTag.toList → ofLine line = .rejected (.tagMismatch line))
          ∧ (Text.trimChars f.tag = pointTag.toList →
              (readFloatChars? (Text.trimChars f.time) = none →
                ofLine line =
                  .rejected
                    (.malformedField line .time (String.ofList (Text.trimChars f.time))))
              ∧ ∀ time, readFloatChars? (Text.trimChars f.time) = some time →
                  (readWordChars? (Text.trimChars f.processors) = none →
                    ofLine line =
                      .rejected
                        (.malformedField line .processors
                          (String.ofList (Text.trimChars f.processors))))
                  ∧ ∀ processors,
                      readWordChars? (Text.trimChars f.processors) = some processors →
                        ofLine line =
                          .accepted
                            (.single (Text.trim (String.ofList f.benchmark)) processors time
                              (Text.trim (String.ofList f.input))
                              (Text.trim (String.ofList f.output)))) := by
  refine ⟨ofLine_of_not_splits, ?_, ?_⟩
  · rintro ⟨g, hg⟩
    obtain ⟨f, hf⟩ := exists_decides hg
    exact ⟨f, hf, fun g hg => decides_unique hg hf⟩
  · intro f hf
    rw [ofLine_of_decides hf]
    refine ⟨fun htag => if_pos htag, fun htag => ⟨?_, fun time htime => ⟨?_, ?_⟩⟩⟩
    · intro htime
      simp only [ofFields, htag, htime, ne_eq, not_true_eq_false, if_false]
    · intro hprocessors
      simp only [ofFields, htag, htime, hprocessors, ne_eq, not_true_eq_false, if_false]
    · intro processors hprocessors
      rw [single_trim]
      exact ofFields_eq_accepted htag htime hprocessors

/-- Of the brackets that may close the input, the last one that leaves room for an output does. -/
example
    : (ofLine "CILKPUB_DATA_POINT, 1.5, 2, fib, [a], [b], [c] x]").point?.map
          (fun p => (p.inputParams, p.outputData))
        = some ("a], [b", "c] x") := by
  decide +kernel

end BenchLog.Recognition
