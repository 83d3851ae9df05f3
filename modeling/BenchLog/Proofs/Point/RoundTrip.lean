import BenchLog.Proofs.Point.Built
import BenchLog.Proofs.Point.Fields
import BenchLog.Proofs.Point.Recognition
import BenchLog.Proofs.Point.Separator

/-! Points that are read back from their lines.
What comes back is settled by the three texts alone: a comma in the benchmark, a line feed in the
input or the output, and a separator in the output are what a line cannot carry.
-/

namespace BenchLog

open PointLine Decimal

/-- The fields of the line that is written for a point. -/
def PointLine.ofPoint (p : Point) : PointLine where
  tag := pointTag.toList
  time := ' ' :: (timeText p.time).toList
  processors := ' ' :: digits p.processors.toNat
  benchmark := ' ' :: p.benchmark.toList
  input := p.inputParams.toList
  output := p.outputData.toList

namespace Point

/-- The point as one observation, as its line shows it. -/
def asSingle (p : Point) : Point :=
  { p with count := 1, minTime := p.time, maxTime := p.time }

/-- The texts of the point can be carried by a line. -/
structure Legible (p : Point) : Prop where
  benchmark : ',' ∉ p.benchmark.toList
  inputParams : '\n' ∉ p.inputParams.toList
  outputData : '\n' ∉ p.outputData.toList
  unseparated : ¬ HasSeparator p.outputData.toList

@[simp]
theorem key_asSingle (p : Point)
    : p.asSingle.key = p.key :=
  rfl

-----------------------------------------------------------------------------------------
-- The splits of a written line
-----------------------------------------------------------------------------------------

theorem toList_line (p : Point)
    : p.line.toList =
        (ofPoint p).tag ++ ',' :: ((ofPoint p).time ++ ',' :: ((ofPoint p).processors ++ ','
          :: ((ofPoint p).benchmark ++ ','
            :: ([' '] ++ '[' :: bracketed p.inputParams.toList p.outputData.toList)))) := by
  simp [line, ofPoint, bracketed, ← toList_toString]

theorem not_mem_line {p : Point} (hb : '\n' ∉ p.benchmark.toList)
    (hi : '\n' ∉ p.inputParams.toList) (ho : '\n' ∉ p.outputData.toList)
    : '\n' ∉ p.line.toList := by
  have htime : '\n' ∉ (timeText p.time).toList := fun hc =>
    absurd (isInk_timeText p.time _ hc).1 (by decide)
  have hprocessors : '\n' ∉ digits p.processors.toNat := fun hc =>
    absurd (isInk_digits _ _ hc).1 (by decide)
  rw [toList_line]
  simp [ofPoint, bracketed, pointTag, htime, hprocessors, hb, hi, ho]

theorem getLast?_line (p : Point)
    : p.line.toList.getLast? = some ']' := by
  rw [line, String.toList_append, List.getLast?_append]
  rfl

theorem isInk_pointTag
    : ∀ c ∈ pointTag.toList, IsInk c :=
  isInk_of_all (by decide)

theorem isField_space_cons {cs : List Char} (h : ',' ∉ cs)
    : IsField (' ' :: cs) :=
  ⟨List.cons_ne_nil _ _, by simpa using h⟩

theorem isField_ofPoint {p : Point} (h : ',' ∉ p.benchmark.toList)
    : IsField (ofPoint p).tag ∧ IsField (ofPoint p).time ∧ IsField (ofPoint p).processors
      ∧ IsField (ofPoint p).benchmark := by
  refine ⟨⟨?_, fun hc => (isInk_pointTag _ hc).2 rfl⟩, ?_, ?_, isField_space_cons h⟩
  · exact (by decide : pointTag.toList ≠ [])
  · exact isField_space_cons fun hc => (isInk_timeText p.time _ hc).2 rfl
  · exact isField_space_cons fun hc => (isInk_digits _ _ hc).2 rfl

/-- The splits of a written line with a text after it are the ways to read what stands behind its
first bracket. -/
theorem splits_line_append_iff {p : Point} (h : ',' ∉ p.benchmark.toList) {t : List Char}
    {g : PointLine}
    : Splits (p.line.toList ++ t) g ↔
        (g.tag = (ofPoint p).tag ∧ g.time = (ofPoint p).time
          ∧ g.processors = (ofPoint p).processors ∧ g.benchmark = (ofPoint p).benchmark)
        ∧ FieldsOf (bracketed p.inputParams.toList p.outputData.toList ++ t) g.input g.output := by
  have hline
      : p.line.toList ++ t =
          (ofPoint p).tag ++ ',' :: ((ofPoint p).time ++ ',' :: ((ofPoint p).processors ++ ','
            :: ((ofPoint p).benchmark ++ ','
              :: ([' '] ++ '['
                :: (bracketed p.inputParams.toList p.outputData.toList ++ t))))) := by
    rw [toList_line]
    simp only [List.append_assoc, List.cons_append]
  rw [hline]
  exact splits_append_iff (isField_ofPoint h) blanks_space

theorem splits_line_iff {p : Point} (h : ',' ∉ p.benchmark.toList) {g : PointLine}
    : Splits p.line.toList g ↔
        (g.tag = (ofPoint p).tag ∧ g.time = (ofPoint p).time
          ∧ g.processors = (ofPoint p).processors ∧ g.benchmark = (ofPoint p).benchmark)
        ∧ FieldsOf (bracketed p.inputParams.toList p.outputData.toList) g.input g.output := by
  simpa only [List.append_nil] using @splits_line_append_iff p h [] g

/-- A written line that can be split, whatever stands after it, stands for a point with the numbers
of the one it was written for. -/
theorem ofLine_line_append_of_decides {p : Point} (hb : ',' ∉ p.benchmark.toList) {t : String}
    {f : PointLine} (h : Decides (p.line ++ t).toList f)
    : Recognition.ofLine (p.line ++ t) =
        .accepted
          (.single p.benchmark p.processors p.time (String.ofList f.input)
            (String.ofList f.output)) := by
  have hsplits := h.1
  rw [String.toList_append] at hsplits
  obtain ⟨⟨htag, htime, hprocessors, hbenchmark⟩, -⟩ := (splits_line_append_iff hb).mp hsplits
  have htag' : Text.trimChars f.tag = pointTag.toList := by
    rw [htag]
    exact Text.trimChars_of_trimmed (trimmed_of_isInk isInk_pointTag)
  have htime' : readFloatChars? (Text.trimChars f.time) = some p.time := by
    rw [htime, ofPoint, Text.trimChars_space_cons,
      Text.trimChars_of_trimmed (trimmed_of_isInk (isInk_timeText p.time))]
    exact readFloat?_timeText p.time
  have hprocessors' : readWordChars? (Text.trimChars f.processors) = some p.processors := by
    rw [hprocessors, ofPoint, Text.trimChars_space_cons,
      Text.trimChars_of_trimmed (trimmed_of_isInk (isInk_digits _))]
    exact readWordChars?_digits p.processors
  rw [Recognition.ofLine_of_decides h,
    Recognition.ofFields_eq_accepted htag' htime' hprocessors', hbenchmark]
  simp [single, ofCount, Text.trim, ofPoint, Text.trimChars_space_cons]

theorem ofLine_line_of_decides {p : Point} (hb : ',' ∉ p.benchmark.toList) {f : PointLine}
    (h : Decides p.line.toList f)
    : Recognition.ofLine p.line =
        .accepted
          (.single p.benchmark p.processors p.time (String.ofList f.input)
            (String.ofList f.output)) := by
  have hline : p.line ++ "" = p.line := String.append_empty
  rw [← hline] at h ⊢
  exact ofLine_line_append_of_decides hb h

-----------------------------------------------------------------------------------------
-- The point that comes back
-----------------------------------------------------------------------------------------

theorem trim_of_trimmed {s : String} (h : Text.Trimmed s.toList)
    : Text.trim s = s := by
  rw [Text.trim, Text.trimChars_of_trimmed h, String.ofList_toList]

/-- Of texts that a line can carry the written fields decide, and the point comes back, also with a
text after the line in which no bracket closes. -/
theorem Legible.ofLine_line_append {p : Point} (h : p.Legible) (ht : p.TrimmedTexts) {t : String}
    (hplain : '\n' ∉ t.toList) (hbracket : ']' ∉ t.toList)
    : Recognition.ofLine (p.line ++ t) = .accepted p.asSingle := by
  have hwritten : '\n' ∉ bracketed p.inputParams.toList p.outputData.toList := by
    simp [bracketed, h.inputParams, h.outputData]
  have hfields
      : ∀ {input output},
          FieldsOf (bracketed p.inputParams.toList p.outputData.toList ++ t.toList) input output ↔
            FieldsOf (bracketed p.inputParams.toList p.outputData.toList) input output :=
    fieldsOf_append_iff hwritten hplain hbracket
  have hdecides : Decides (p.line ++ t).toList (ofPoint p) := by
    rw [String.toList_append]
    constructor
    · exact (splits_line_append_iff h.benchmark).mpr
        ⟨⟨rfl, rfl, rfl, rfl⟩, hfields.mpr (fieldsOf_bracketed h.inputParams h.outputData)⟩
    · intro g hg
      have hread := ((splits_line_append_iff h.benchmark).mp hg).2
      exact (hfields.mp hread).precedes_bracketed h.unseparated
  rw [ofLine_line_append_of_decides h.benchmark hdecides]
  simp [single, ofCount, asSingle, ofPoint, Text.trim, Text.trimChars_of_trimmed ht.benchmark,
    Text.trimChars_of_trimmed ht.inputParams, Text.trimChars_of_trimmed ht.outputData]

theorem Legible.ofLine_line {p : Point} (h : p.Legible) (ht : p.TrimmedTexts)
    : Recognition.ofLine p.line = .accepted p.asSingle := by
  have hline : p.line ++ "" = p.line := String.append_empty
  rw [← hline]
  exact h.ofLine_line_append ht (by simp) (by simp)

/-- A text that goes on after a bracket is longer than what stands before it, since trimming takes
away neither of them. -/
theorem length_lt_trim {s : String} (hs : Text.Trimmed s.toList) {cs : List Char}
    (h : s.toList ++ [']'] <+: cs)
    : s.toList.length < (Text.trim (String.ofList cs)).toList.length := by
  obtain ⟨more, rfl⟩ := h
  have hbracket : Text.Trimmed [']'] := Text.trimmed_singleton (by decide)
  have hle := ((hs.append hbracket).prefix_trimChars (by simp) more).length_le
  rw [List.length_append] at hle
  rw [Text.trim, String.toList_ofList, String.toList_ofList]
  exact hle

/-- With a separator in the output another point comes back: its input takes in the closing bracket
of the one that was written, and so it is longer. -/
theorem exists_longer_of_hasSeparator {p : Point} (ht : p.TrimmedTexts)
    (hb : ',' ∉ p.benchmark.toList) (hi : '\n' ∉ p.inputParams.toList)
    (ho : '\n' ∉ p.outputData.toList) (hs : HasSeparator p.outputData.toList)
    : ∃ q,
        Recognition.ofLine p.line = .accepted q
        ∧ q.benchmark = p.benchmark
        ∧ q.processors = p.processors
        ∧ p.inputParams.toList.length < q.inputParams.toList.length := by
  have hplain : '\n' ∉ bracketed p.inputParams.toList p.outputData.toList := by
    simp [bracketed, hi, ho]
  obtain ⟨longer, beside, hfields, hl⟩ := (fieldsOf_bracketed hi ho).exists_longer hplain hs
  have hsplits : Splits p.line.toList { ofPoint p with input := longer, output := beside } :=
    (splits_line_iff hb).mpr ⟨⟨rfl, rfl, rfl, rfl⟩, hfields⟩
  obtain ⟨f, hf⟩ := Recognition.exists_decides hsplits
  refine ⟨_, ofLine_line_of_decides hb hf, trim_of_trimmed ht.benchmark, rfl, ?_⟩
  have hlength : p.inputParams.toList.length < f.input.length := by
    rcases hf.2 _ hsplits with h | h
    · exact hl.trans h
    · exact h.1 ▸ hl
  exact length_lt_trim ht.inputParams (prefix_of_longer ((splits_line_iff hb).mp hf.1).2 hlength)

theorem Legible.ofNamedLine_line {p : Point} (h : p.Legible) (ht : p.TrimmedTexts)
    (hvalid : p.isValid = true)
    : Recognition.ofNamedLine p.line = .accepted p.asSingle := by
  rw [Recognition.ofNamedLine, h.ofLine_line ht]
  exact if_pos hvalid

-----------------------------------------------------------------------------------------
-- Texts that have been read
-----------------------------------------------------------------------------------------

theorem trim_isInfix (cs : List Char)
    : (Text.trim (String.ofList cs)).toList <:+: cs := by
  rw [Text.trim, String.toList_ofList, String.toList_ofList]
  exact Text.trimChars_isInfix cs

theorem not_mem_trim {c : Char} {cs : List Char} (h : c ∉ cs)
    : c ∉ (Text.trim (String.ofList cs)).toList :=
  fun hc => h ((trim_isInfix cs).subset hc)

/-- Whatever the line, the fields of a point that is read have been told apart. -/
theorem clean_of_accepted {line : String} {q : Point} (h : Recognition.ofLine line = .accepted q)
    : ',' ∉ q.benchmark.toList ∧ '\n' ∉ q.inputParams.toList ∧ '\n' ∉ q.outputData.toList := by
  obtain ⟨f, hf, -, time, processors, rfl⟩ := Recognition.exists_decides_of_accepted h
  obtain ⟨⟨-, -, -, hbenchmark⟩, hinput, houtput, -⟩ := hf.1
  exact ⟨not_mem_trim hbenchmark.2, not_mem_trim hinput, not_mem_trim houtput⟩

/-- A point that stands in a single line can be carried by one: a separator in its output would
have let the input end later. -/
theorem legible_of_accepted {line : String} {q : Point} (hline : '\n' ∉ line.toList)
    (h : Recognition.ofLine line = .accepted q)
    : q.Legible ∧ '\n' ∉ q.benchmark.toList := by
  obtain ⟨hbenchmark, hinput, houtput⟩ := clean_of_accepted h
  obtain ⟨f, hf, -, time, processors, rfl⟩ := Recognition.exists_decides_of_accepted h
  obtain ⟨hfields, w, rest, hw, hbrackets, hsplit⟩ := splits_iff.mp hf.1
  rw [hsplit] at hline
  simp only [List.mem_append, List.mem_cons, not_or] at hline
  refine ⟨⟨hbenchmark, hinput, houtput, fun hs => ?_⟩, ?_⟩
  · have hseparator : HasSeparator f.output := hs.of_isInfix (trim_isInfix f.output)
    obtain ⟨longer, beside, hlonger, hl⟩ :=
      hbrackets.exists_longer (by simp [hline]) hseparator
    have hsplits : Splits line.toList { f with input := longer, output := beside } := by
      rw [hsplit]
      exact (splits_append_iff hfields hw).mpr ⟨⟨rfl, rfl, rfl, rfl⟩, hlonger⟩
    rcases hf.2 _ hsplits with hle | hle
    · exact absurd hl hle.not_gt
    · exact absurd hle.1 hl.ne'
  · exact not_mem_trim (by simp [hline])

/-- A point that has been read has no blanks around its texts. -/
theorem trimmedTexts_of_accepted {line : String} {q : Point}
    (h : Recognition.ofLine line = .accepted q)
    : q.TrimmedTexts := by
  obtain ⟨f, -, -, time, processors, rfl⟩ := Recognition.exists_decides_of_accepted h
  exact (Built.ofCount ..).trimmedTexts

theorem asSingle_of_accepted {line : String} {q : Point}
    (h : Recognition.ofLine line = .accepted q)
    : q.asSingle = q := by
  obtain ⟨f, -, -, time, processors, rfl⟩ := Recognition.exists_decides_of_accepted h
  rfl

/-- The line that is written for a point that was read from a single line is a normal form of that
line: it is a single line, too, and the same point is read from it, bit for bit, however the first
line spelled the numbers and whatever it had around its fields and after them. -/
theorem ofLine_line_of_accepted {line : String} (hline : '\n' ∉ line.toList) {p : Point}
    (h : Recognition.ofLine line = .accepted p)
    : Recognition.ofLine p.line = .accepted p
      ∧ '\n' ∉ p.line.toList
      ∧ p.count = 1
      ∧ p.minTime = p.time
      ∧ p.maxTime = p.time := by
  obtain ⟨hlegible, hbenchmark⟩ := legible_of_accepted hline h
  have hsingle := asSingle_of_accepted h
  refine ⟨?_, not_mem_line hbenchmark hlegible.inputParams hlegible.outputData, ?_, ?_, ?_⟩
  · rw [hlegible.ofLine_line (trimmedTexts_of_accepted h), hsingle]
  · exact (congrArg count hsingle).symm
  · exact (congrArg minTime hsingle).symm
  · exact (congrArg maxTime hsingle).symm

/-- A line with blanks, a time with an exponent, a padded count of processors, brackets in both
lists and a text at the end. -/
def ornateLine : String :=
  " CILKPUB_DATA_POINT,\t+.25e1 ,007,fib\t, [ a], [b ] ,[c] x] tail"

theorem ofLine_line_ornate
    : ∃ p,
        Recognition.ofLine ornateLine = .accepted p
        ∧ p.line = "CILKPUB_DATA_POINT, 2.500000, 7, fib, [a], [b], [c] x]"
        ∧ Recognition.ofLine p.line = .accepted p := by
  have hread
      : (Recognition.ofNamedLine ornateLine).point?.map line =
          some "CILKPUB_DATA_POINT, 2.500000, 7, fib, [a], [b], [c] x]" := by
    decide +kernel
  obtain ⟨p, hp, hwritten⟩ := Option.map_eq_some_iff.mp hread
  obtain ⟨haccepted, -⟩ := Recognition.point?_ofNamedLine_iff.mp hp
  exact ⟨p, haccepted, hwritten, (ofLine_line_of_accepted (by decide +kernel) haccepted).1⟩

-----------------------------------------------------------------------------------------
-- The round trip
-----------------------------------------------------------------------------------------

/-- A point comes back from its line exactly if its texts can be carried by one. Then nothing is
reported and the time is the same, bit for bit; otherwise no point or another one comes back. -/
theorem Built.ofLine_line_iff {p : Point} (h : p.Built)
    : ((∃ q,
            Recognition.ofLine p.line = .accepted q
            ∧ q.key = p.key
            ∧ q.outputData = p.outputData)
          ↔ p.Legible)
      ∧ (p.Legible →
          Recognition.ofLine p.line =
            .accepted { p with count := 1, minTime := p.time, maxTime := p.time })
      ∧ (¬ p.Legible →
          ∀ q, Recognition.ofLine p.line = .accepted q →
            q.key ≠ p.key ∨ q.outputData ≠ p.outputData) := by
  have hback : p.Legible → Recognition.ofLine p.line = .accepted p.asSingle :=
    fun hl => hl.ofLine_line h.trimmedTexts
  have hlegible
      : ∀ q, Recognition.ofLine p.line = .accepted q → q.key = p.key →
          q.outputData = p.outputData → p.Legible := by
    intro q hq hkey ho
    obtain ⟨hbenchmark, hinput, houtput⟩ := clean_of_accepted hq
    simp only [key, Key.mk.injEq] at hkey
    obtain ⟨hb, hi, -⟩ := hkey
    rw [hb] at hbenchmark
    rw [hi] at hinput
    rw [ho] at houtput
    refine ⟨hbenchmark, hinput, houtput, fun hs => ?_⟩
    obtain ⟨q', hq', -, -, hl⟩ :=
      exists_longer_of_hasSeparator h.trimmedTexts hbenchmark hinput houtput hs
    obtain rfl := Recognition.accepted.inj (hq.symm.trans hq')
    exact absurd (hi ▸ rfl) hl.ne'
  refine ⟨⟨?_, fun hl => ⟨p.asSingle, hback hl, rfl, rfl⟩⟩, hback, fun hnot q hq => ?_⟩
  · rintro ⟨q, hq, hkey, ho⟩
    exact hlegible q hq hkey ho
  · by_cases hkey : q.key = p.key
    · exact Or.inr fun ho => hnot (hlegible q hq hkey ho)
    · exact Or.inl hkey

/-- A separator in the input does no harm: three summed observations come back as one. -/
theorem ofLine_line_nested
    : (ofCount "fib" 4 0.5 "1], [2" "ok]" 3).Built
      ∧ (ofCount "fib" 4 0.5 "1], [2" "ok]" 3).Legible
      ∧ Recognition.ofLine (ofCount "fib" 4 0.5 "1], [2" "ok]" 3).line =
          .accepted (ofCount "fib" 4 0.5 "1], [2" "ok]" 1) := by
  have hbuilt : (ofCount "fib" 4 0.5 "1], [2" "ok]" 3).Built := .ofCount ..
  have hlegible : (ofCount "fib" 4 0.5 "1], [2" "ok]" 3).Legible :=
    ⟨by decide, by decide, by decide, by decide⟩
  exact ⟨hbuilt, hlegible, hbuilt.ofLine_line_iff.2.1 hlegible⟩

end Point

end BenchLog
