import BenchLog.Point.Line
import Mathlib.Data.List.TakeWhile

/-! The shape of the line of a point.
A line can be split into fields in many ways; the one with the longest input, and among those with
the longest output, is the one that is read.
-/

namespace BenchLog.PointLine

-----------------------------------------------------------------------------------------
-- The splits of a line
-----------------------------------------------------------------------------------------

/-- A text of blanks, line feeds among them, or no text at all. -/
def Blanks (cs : List Char) : Prop :=
  ∀ c ∈ cs, Text.isBlank c = true

/-- A text that may stand between commas. -/
def IsField (cs : List Char) : Prop :=
  cs ≠ [] ∧ ',' ∉ cs

/-- One way to split a line into four fields between commas and two in brackets, with blanks
around the brackets and any text after them. -/
def Splits (line : List Char) (f : PointLine) : Prop :=
  (IsField f.tag ∧ IsField f.time ∧ IsField f.processors ∧ IsField f.benchmark)
  ∧ '\n' ∉ f.input
  ∧ '\n' ∉ f.output
  ∧ ∃ w₁ w₂ w₃ w₄ rest,
      (Blanks w₁ ∧ Blanks w₂ ∧ Blanks w₃ ∧ Blanks w₄)
      ∧ '\n' ∉ rest
      ∧ line =
          f.tag ++ ',' :: (f.time ++ ',' :: (f.processors ++ ',' :: (f.benchmark ++ ','
            :: (w₁ ++ '[' :: (f.input ++ ']' :: (w₂ ++ ','
              :: (w₃ ++ '[' :: (f.output ++ ']' :: (w₄ ++ rest)))))))))

/-- A longer input comes first, and among inputs of one length a longer output. -/
def Precedes (f g : PointLine) : Prop :=
  g.input.length < f.input.length
  ∨ g.input.length = f.input.length ∧ g.output.length ≤ f.output.length

/-- The split that comes before all others. -/
def Decides (line : List Char) (f : PointLine) : Prop :=
  Splits line f ∧ ∀ g, Splits line g → Precedes f g

-----------------------------------------------------------------------------------------
-- The parts of the end of a line
-----------------------------------------------------------------------------------------

/-- An output without line feed, its closing bracket and what may follow it. -/
def OutputOf (cs output : List Char) : Prop :=
  '\n' ∉ output ∧ ∃ w rest, Blanks w ∧ '\n' ∉ rest ∧ cs = output ++ ']' :: (w ++ rest)

/-- An input without line feed and an output, with a separator between them. -/
def FieldsOf (cs input output : List Char) : Prop :=
  '\n' ∉ input
  ∧ ∃ w₂ w₃ rest,
      Blanks w₂
      ∧ Blanks w₃
      ∧ cs = input ++ ']' :: (w₂ ++ ',' :: (w₃ ++ '[' :: rest))
      ∧ OutputOf rest output

/-- A split consists of four fields, a bracket after blanks, and the fields in brackets. -/
theorem splits_iff {line : List Char} {f : PointLine}
    : Splits line f ↔
        (IsField f.tag ∧ IsField f.time ∧ IsField f.processors ∧ IsField f.benchmark)
        ∧ ∃ w₁ rest,
            Blanks w₁
            ∧ FieldsOf rest f.input f.output
            ∧ line =
                f.tag ++ ',' :: (f.time ++ ',' :: (f.processors ++ ',' :: (f.benchmark ++ ','
                  :: (w₁ ++ '[' :: rest)))) := by
  constructor
  · rintro ⟨hf, hi, ho, w₁, w₂, w₃, w₄, rest, ⟨h₁, h₂, h₃, h₄⟩, hr, rfl⟩
    exact ⟨hf, w₁, _, h₁, ⟨hi, w₂, w₃, _, h₂, h₃, rfl, ho, w₄, rest, h₄, hr, rfl⟩, rfl⟩
  · rintro ⟨hf, w₁, _, h₁, ⟨hi, w₂, w₃, _, h₂, h₃, rfl, ho, w₄, rest, h₄, hr, rfl⟩, rfl⟩
    exact ⟨hf, hi, ho, w₁, w₂, w₃, w₄, rest, ⟨h₁, h₂, h₃, h₄⟩, hr, rfl⟩

theorem blanks_takeWhile (cs : List Char)
    : Blanks (cs.takeWhile Text.isBlank) :=
  fun _ hc => List.mem_takeWhile_imp hc

theorem dropBlank_append {w : List Char} (hw : Blanks w) {c : Char}
    (hc : Text.isBlank c = false) (cs : List Char)
    : Text.dropBlank (w ++ c :: cs) = c :: cs := by
  rw [Text.dropBlank, List.dropWhile_append_of_pos hw, List.dropWhile_cons_of_neg (by simp [hc])]

theorem eq_append_dropBlank (cs : List Char)
    : cs = cs.takeWhile Text.isBlank ++ Text.dropBlank cs :=
  List.takeWhile_append_dropWhile.symm

theorem isPlain_iff {cs : List Char}
    : isPlain cs = true ↔ '\n' ∉ cs := by
  simp only [isPlain, List.all_eq_true, bne_iff_ne, ne_eq]
  exact ⟨fun h hc => h _ hc rfl, fun h c hc he => h (he ▸ hc)⟩

/-- A tail is blanks and a text without line feed. -/
theorem isTail_iff {cs : List Char}
    : isTail cs = true ↔ ∃ w rest, Blanks w ∧ '\n' ∉ rest ∧ cs = w ++ rest := by
  rw [isTail, isPlain_iff]
  constructor
  · intro h
    exact ⟨_, _, blanks_takeWhile cs, h, eq_append_dropBlank cs⟩
  · rintro ⟨w, rest, hw, hr, rfl⟩ hc
    rw [Text.dropBlank, List.dropWhile_append_of_pos hw] at hc
    exact hr ((List.dropWhile_suffix _).subset hc)

theorem openBracket?_eq_some_iff {cs rest : List Char}
    : openBracket? cs = some rest ↔ ∃ w, Blanks w ∧ cs = w ++ '[' :: rest := by
  constructor
  · intro h
    unfold openBracket? at h
    split at h
    · next he =>
        cases h
        exact ⟨_, blanks_takeWhile cs, he ▸ eq_append_dropBlank cs⟩
    · cases h
  · rintro ⟨w, hw, rfl⟩
    rw [openBracket?, dropBlank_append hw (by decide)]
    rfl

theorem nextBracket?_eq_some_iff {cs rest : List Char}
    : nextBracket? cs = some rest ↔
        ∃ w₂ w₃, Blanks w₂ ∧ Blanks w₃ ∧ cs = w₂ ++ ',' :: (w₃ ++ '[' :: rest) := by
  constructor
  · intro h
    unfold nextBracket? at h
    split at h
    · next he =>
        obtain ⟨w₃, h₃, hr⟩ := openBracket?_eq_some_iff.mp h
        refine ⟨_, w₃, blanks_takeWhile cs, h₃, ?_⟩
        rw [← hr, ← he]
        exact eq_append_dropBlank cs
    · cases h
  · rintro ⟨w₂, w₃, h₂, h₃, rfl⟩
    rw [nextBracket?, dropBlank_append h₂ (by decide)]
    exact openBracket?_eq_some_iff.mpr ⟨w₃, h₃, rfl⟩

theorem field?_eq_some_iff {cs text rest : List Char}
    : field? cs = some (text, rest) ↔ IsField text ∧ cs = text ++ ',' :: rest := by
  constructor
  · intro h
    unfold field? at h
    split at h
    · next c text' d rest' ht hd =>
        cases h
        have hsplit := List.takeWhile_append_dropWhile (p := (· != ',')) (l := cs)
        have hcomma : d = ',' := by
          have := List.head?_dropWhile_not (· != ',') cs
          rw [hd] at this
          simpa using this
        rw [ht, hd, hcomma] at hsplit
        refine ⟨⟨by simp, fun hm => ?_⟩, hsplit.symm⟩
        rw [← ht] at hm
        simpa using List.mem_takeWhile_imp hm
    · cases h
  · rintro ⟨⟨hne, hcomma⟩, rfl⟩
    have hall : ∀ c ∈ text, (c != ',') = true := by
      intro c hc
      rw [bne_iff_ne]
      rintro rfl
      exact hcomma hc
    obtain ⟨c, text, rfl⟩ := List.exists_cons_of_ne_nil hne
    simp only [field?, List.takeWhile_append_of_pos hall, List.dropWhile_append_of_pos hall]
    simp

/-- What is joined by a separator is told apart by the first one, by induction along both
lists. -/
theorem append_cons_inj_of_not_mem {α : Type} {separator : α} {before before' after after' : List α}
    (h : separator ∉ before) (h' : separator ∉ before')
    (he : before ++ separator :: after = before' ++ separator :: after')
    : before = before' ∧ after = after' := by
  induction before generalizing before' with
  | nil =>
      cases before' with
      | nil => exact ⟨rfl, (List.cons.inj he).2⟩
      | cons a before' =>
          obtain ⟨rfl, -⟩ := List.cons.inj he
          exact absurd List.mem_cons_self h'
  | cons a before ih =>
      cases before' with
      | nil =>
          obtain ⟨rfl, -⟩ := List.cons.inj he
          exact absurd List.mem_cons_self h
      | cons b before' =>
          obtain ⟨rfl, hrest⟩ := List.cons.inj he
          obtain ⟨rfl, hafter⟩ :=
            ih (List.not_mem_of_not_mem_cons h) (List.not_mem_of_not_mem_cons h') hrest
          exact ⟨rfl, hafter⟩

theorem IsField.append_inj {text text' rest rest' : List Char} (h : IsField text)
    (h' : IsField text') (he : text ++ ',' :: rest = text' ++ ',' :: rest')
    : text = text' ∧ rest = rest' :=
  append_cons_inj_of_not_mem h.2 h'.2 he

theorem Blanks.bracket_inj {w w' rest rest' : List Char} (h : Blanks w) (h' : Blanks w')
    (he : w ++ '[' :: rest = w' ++ '[' :: rest')
    : rest = rest' := by
  have hread := openBracket?_eq_some_iff.mpr ⟨w, h, (rfl : w ++ '[' :: rest = _)⟩
  rw [openBracket?_eq_some_iff.mpr ⟨w', h', he⟩, Option.some.injEq] at hread
  exact hread.symm

/-- The splits of one line differ in the fields in brackets only. -/
theorem splits_append_iff {f g : PointLine} {w rest : List Char}
    (hf : IsField f.tag ∧ IsField f.time ∧ IsField f.processors ∧ IsField f.benchmark)
    (hw : Blanks w)
    : Splits
          (f.tag ++ ',' :: (f.time ++ ',' :: (f.processors ++ ',' :: (f.benchmark ++ ','
            :: (w ++ '[' :: rest))))) g
        ↔ (g.tag = f.tag ∧ g.time = f.time ∧ g.processors = f.processors
            ∧ g.benchmark = f.benchmark)
          ∧ FieldsOf rest g.input g.output := by
  obtain ⟨ht, hm, hp, hb⟩ := hf
  rw [splits_iff]
  constructor
  · rintro ⟨⟨ht', hm', hp', hb'⟩, w', rest', hw', hfields, hline⟩
    obtain ⟨htag, hline⟩ := ht.append_inj ht' hline
    obtain ⟨htime, hline⟩ := hm.append_inj hm' hline
    obtain ⟨hprocessors, hline⟩ := hp.append_inj hp' hline
    obtain ⟨hbenchmark, hline⟩ := hb.append_inj hb' hline
    obtain rfl := hw.bracket_inj hw' hline
    exact ⟨⟨htag.symm, htime.symm, hprocessors.symm, hbenchmark.symm⟩, hfields⟩
  · rintro ⟨⟨htag, htime, hprocessors, hbenchmark⟩, hfields⟩
    refine ⟨⟨htag ▸ ht, htime ▸ hm, hprocessors ▸ hp, hbenchmark ▸ hb⟩, w, rest, hw, hfields, ?_⟩
    rw [htag, htime, hprocessors, hbenchmark]

-----------------------------------------------------------------------------------------
-- The longest output, and the longest input
-----------------------------------------------------------------------------------------

/-- What is found is an output, by induction along the text. -/
theorem outputOf_of_output? {cs output : List Char} (h : output? cs = some output)
    : OutputOf cs output := by
  induction cs generalizing output with
  | nil => cases h
  | cons c cs ih =>
      unfold output? at h
      split at h
      · next found he =>
          cases h
          split at he
          · cases he
          · next hc =>
              obtain ⟨hn, w, rest, hw, hr, rfl⟩ := ih he
              exact ⟨by simp [hn, Ne.symm hc], w, rest, hw, hr, rfl⟩
      · split at h
        · next hc =>
            cases h
            obtain ⟨w, rest, hw, hr, rfl⟩ := isTail_iff.mp hc.2
            exact ⟨by simp, w, rest, hw, hr, by rw [hc.1]; rfl⟩
        · cases h

/-- No output is longer than the one that is found, by induction along the text. -/
theorem OutputOf.output? {cs output : List Char} (h : OutputOf cs output)
    : ∃ longest, output? cs = some longest ∧ output.length ≤ longest.length := by
  induction cs generalizing output with
  | nil =>
      obtain ⟨_, w, rest, _, _, he⟩ := h
      simp at he
  | cons c cs ih =>
      obtain ⟨hn, w, rest, hw, hr, he⟩ := h
      cases output with
      | nil =>
          obtain ⟨rfl, rfl⟩ := List.cons.inj he
          have htail : isTail (w ++ rest) = true := isTail_iff.mpr ⟨w, rest, hw, hr, rfl⟩
          unfold PointLine.output?
          split
          · exact ⟨_, rfl, Nat.zero_le _⟩
          · exact ⟨[], by simp [htail], Nat.zero_le _⟩
      | cons d output =>
          obtain ⟨rfl, rfl⟩ := List.cons.inj he
          simp only [List.mem_cons, not_or] at hn
          obtain ⟨longest, hl, hle⟩ := ih ⟨hn.2, w, rest, hw, hr, rfl⟩
          refine ⟨c :: longest, ?_, by simpa using hle⟩
          rw [PointLine.output?, if_neg (Ne.symm hn.1), hl]

/-- What is found is an input with an output, by induction along the text. -/
theorem fieldsOf_of_inputOutput? {cs input output : List Char}
    (h : inputOutput? cs = some (input, output))
    : FieldsOf cs input output := by
  induction cs generalizing input output with
  | nil => cases h
  | cons c cs ih =>
      unfold inputOutput? at h
      split at h
      · next found he =>
          cases h
          split at he
          · cases he
          · next hc =>
              obtain ⟨hn, w₂, w₃, rest, h₂, h₃, rfl, ho⟩ := ih he
              exact ⟨by simp [hn, Ne.symm hc], w₂, w₃, rest, h₂, h₃, rfl, ho⟩
      · split at h
        · next hc =>
            obtain ⟨found, hfound, heq⟩ := Option.map_eq_some_iff.mp h
            cases heq
            obtain ⟨rest, hrest, ho⟩ := Option.bind_eq_some_iff.mp hfound
            obtain ⟨w₂, w₃, h₂, h₃, rfl⟩ := nextBracket?_eq_some_iff.mp hrest
            exact ⟨by simp, w₂, w₃, rest, h₂, h₃, by rw [hc]; rfl, outputOf_of_output? ho⟩
        · cases h

/-- No input is longer than the one that is found, and no output of an input of its length is
longer than the one found with it, by induction along the text. -/
theorem FieldsOf.inputOutput? {cs input output : List Char} (h : FieldsOf cs input output)
    : ∃ longest beside,
        inputOutput? cs = some (longest, beside)
        ∧ (input.length < longest.length
          ∨ input.length = longest.length ∧ output.length ≤ beside.length) := by
  induction cs generalizing input with
  | nil =>
      obtain ⟨_, _, _, _, _, _, he, _⟩ := h
      simp at he
  | cons c cs ih =>
      obtain ⟨hn, w₂, w₃, rest, h₂, h₃, he, ho⟩ := h
      cases input with
      | nil =>
          obtain ⟨rfl, rfl⟩ := List.cons.inj he
          obtain ⟨beside, hb, hle⟩ := ho.output?
          have hnext : nextBracket? (w₂ ++ ',' :: (w₃ ++ '[' :: rest)) = some rest :=
            nextBracket?_eq_some_iff.mpr ⟨w₂, w₃, h₂, h₃, rfl⟩
          unfold PointLine.inputOutput?
          split
          · exact ⟨_, _, rfl, Or.inl (by simp)⟩
          · exact ⟨[], beside, by simp [hnext, hb], Or.inr ⟨rfl, hle⟩⟩
      | cons d input =>
          obtain ⟨rfl, rfl⟩ := List.cons.inj he
          simp only [List.mem_cons, not_or] at hn
          obtain ⟨longest, beside, hl, hle⟩ := ih ⟨hn.2, w₂, w₃, rest, h₂, h₃, rfl, ho⟩
          refine ⟨c :: longest, beside, ?_, by simpa using hle⟩
          rw [PointLine.inputOutput?, if_neg (Ne.symm hn.1), hl]

-----------------------------------------------------------------------------------------
-- The split that is read
-----------------------------------------------------------------------------------------

theorem splits_of_ofChars? {line : List Char} {f : PointLine} (h : ofChars? line = some f)
    : Splits line f := by
  unfold ofChars? at h
  simp only [Option.bind_eq_bind, Option.bind_eq_some_iff, Option.some.injEq, Option.pure_def,
    Prod.exists, Ending.fields_ofChars] at h
  obtain ⟨tag, r₁, h₁, time, r₂, h₂, processors, r₃, h₃, benchmark, r₄, h₄, r₅, h₅, input, output,
    h₆, rfl⟩ := h
  obtain ⟨ht, rfl⟩ := field?_eq_some_iff.mp h₁
  obtain ⟨hm, rfl⟩ := field?_eq_some_iff.mp h₂
  obtain ⟨hp, rfl⟩ := field?_eq_some_iff.mp h₃
  obtain ⟨hb, rfl⟩ := field?_eq_some_iff.mp h₄
  obtain ⟨w₁, hw, rfl⟩ := openBracket?_eq_some_iff.mp h₅
  exact splits_iff.mpr ⟨⟨ht, hm, hp, hb⟩, w₁, r₅, hw, fieldsOf_of_inputOutput? h₆, rfl⟩

theorem FieldsOf.eq_of_length_eq {cs input output input' output' : List Char}
    (h : FieldsOf cs input output) (h' : FieldsOf cs input' output')
    (hi : input.length = input'.length) (ho : output.length = output'.length)
    : input = input' ∧ output = output' := by
  obtain ⟨_, w₂, w₃, rest, h₂, h₃, rfl, _, w₄, tail, _, _, rfl⟩ := h
  obtain ⟨_, v₂, v₃, rest', h₂', h₃', he, _, w₄', tail', _, _, rfl⟩ := h'
  obtain ⟨rfl, hrest⟩ := List.append_inj he hi
  have hnext := nextBracket?_eq_some_iff.mpr ⟨v₂, v₃, h₂', h₃', (List.cons.inj hrest).2⟩
  rw [nextBracket?_eq_some_iff.mpr ⟨w₂, w₃, h₂, h₃, rfl⟩, Option.some.injEq] at hnext
  exact ⟨rfl, (List.append_inj hnext ho).1⟩

/-- Every split has the four fields of the one that is read, which comes before it. -/
theorem Splits.ofChars? {line : List Char} {g : PointLine} (h : Splits line g)
    : ∃ input output,
        ofChars? line = some { g with input, output }
        ∧ Precedes { g with input, output } g := by
  obtain ⟨⟨ht, hm, hp, hb⟩, w₁, rest, hw, hfields, rfl⟩ := splits_iff.mp h
  obtain ⟨input, output, hl, hle⟩ := hfields.inputOutput?
  refine ⟨input, output, ?_, hle⟩
  have h₁ := fun r => field?_eq_some_iff.mpr ⟨ht, (rfl : g.tag ++ ',' :: r = _)⟩
  have h₂ := fun r => field?_eq_some_iff.mpr ⟨hm, (rfl : g.time ++ ',' :: r = _)⟩
  have h₃ := fun r => field?_eq_some_iff.mpr ⟨hp, (rfl : g.processors ++ ',' :: r = _)⟩
  have h₄ := fun r => field?_eq_some_iff.mpr ⟨hb, (rfl : g.benchmark ++ ',' :: r = _)⟩
  have h₅ := openBracket?_eq_some_iff.mpr ⟨w₁, hw, (rfl : w₁ ++ '[' :: rest = _)⟩
  simp only [PointLine.ofChars?, Option.bind_eq_bind, h₁, h₂, h₃, h₄, h₅, Option.bind_some,
    Ending.fields_ofChars, hl, Option.pure_def]

theorem decides_of_ofChars? {line : List Char} {f : PointLine} (h : ofChars? line = some f)
    : Decides line f := by
  refine ⟨splits_of_ofChars? h, ?_⟩
  intro g hg
  obtain ⟨input, output, hread, hle⟩ := hg.ofChars?
  rw [h, Option.some.injEq] at hread
  exact hread ▸ hle

/-- The split that comes before all others is read. -/
theorem Decides.ofChars? {line : List Char} {f : PointLine} (h : Decides line f)
    : ofChars? line = some f := by
  obtain ⟨input, output, hread, hle⟩ := h.1.ofChars?
  have hback := h.2 _ (splits_of_ofChars? hread)
  have hlength : input.length = f.input.length ∧ output.length = f.output.length := by
    simp only [Precedes] at hle hback
    omega
  obtain ⟨hf, w₁, rest, hw, hfields, rfl⟩ := splits_iff.mp h.1
  have hfields' := ((splits_append_iff hf hw).mp (splits_of_ofChars? hread)).2
  obtain ⟨rfl, rfl⟩ := hfields'.eq_of_length_eq hfields hlength.1 hlength.2
  exact hread

theorem ofChars?_eq_none_iff {line : List Char}
    : ofChars? line = none ↔ ¬ ∃ f, Splits line f := by
  constructor
  · rintro h ⟨f, hf⟩
    obtain ⟨_, _, hread, _⟩ := hf.ofChars?
    rw [h] at hread
    cases hread
  · intro h
    cases hread : ofChars? line with
    | none => rfl
    | some f => exact absurd ⟨f, splits_of_ofChars? hread⟩ h

end BenchLog.PointLine
