import BenchLog.Log
import BenchLog.Proofs.Point.RoundTrip

/-! What a scan of lines collects.
Points are taken from the lines one by one, whatever the descriptions; a line that opens with a
comment sign is never a point, and the header line of a data set tells its description.
-/

namespace BenchLog

-----------------------------------------------------------------------------------------
-- Comment lines
-----------------------------------------------------------------------------------------

namespace Recognition

/-- A comment sign that opens a line is part of the tag, which is then not the one of a point. -/
theorem trimChars_tag_ne_of_comment {line : String} (h : line.toList.head? = some '#')
    {f : PointLine} (hf : PointLine.Splits line.toList f)
    : Text.trimChars f.tag ≠ pointTag.toList := by
  obtain ⟨⟨⟨hne, -⟩, -⟩, -, -, w₁, w₂, w₃, w₄, rest, -, -, hline⟩ := hf
  obtain ⟨c, more, hc⟩ := List.exists_cons_of_ne_nil hne
  obtain rfl : c = '#' := by
    rw [hline, hc] at h
    exact Option.some.inj h
  have hsign : Text.Trimmed ['#'] := Text.trimmed_singleton (by decide)
  have hpre := hsign.prefix_trimChars (List.cons_ne_nil _ _) more
  rw [List.singleton_append, ← hc] at hpre
  intro htag
  rw [htag] at hpre
  exact absurd hpre (by decide)

/-- A line that opens with a comment sign is reported if it can be split and passed over if not. -/
theorem ofNamedLine_of_comment {line : String} (h : line.toList.head? = some '#')
    : ((∃ f, PointLine.Splits line.toList f) → ofNamedLine line = .rejected (.tagMismatch line))
      ∧ ((¬ ∃ f, PointLine.Splits line.toList f) → ofNamedLine line = .unrelated) := by
  constructor
  · rintro ⟨g, hg⟩
    obtain ⟨f, hf⟩ := exists_decides hg
    rw [ofNamedLine, ofLine_of_decides hf, ofFields, if_pos (trimChars_tag_ne_of_comment h hf.1)]
    rfl
  · intro hs
    rw [ofNamedLine, ofLine_of_not_splits hs]
    rfl

theorem point?_of_comment {line : String} (h : line.toList.head? = some '#')
    : (ofNamedLine line).point? = none := by
  by_cases hs : ∃ f, PointLine.Splits line.toList f
  · rw [(ofNamedLine_of_comment h).1 hs]
    rfl
  · rw [(ofNamedLine_of_comment h).2 hs]
    rfl

end Recognition

-----------------------------------------------------------------------------------------
-- The points of a scan
-----------------------------------------------------------------------------------------

namespace Log

/-- The points of a scan are those of its lines, by induction along the lines. -/
theorem points_scan (labels : List String) (description : Option String) (lines : List String)
    : (scan labels description lines).value.2 =
        lines.filterMap fun line => (Recognition.ofNamedLine line).point? := by
  induction lines generalizing description with
  | nil => rfl
  | cons line lines ih =>
      rw [scan, List.filterMap_cons]
      cases hpoint : (Recognition.ofNamedLine line).point? with
      | some p => simp [ih]
      | none =>
          simp only [Journal.value_bind]
          split
          · split
            · exact ih description
            · exact ih _
          · exact ih description

theorem scan_cons_of_point {line : String} {p : Point}
    (h : Recognition.ofNamedLine line = .accepted p) (labels : List String)
    (description : Option String) (lines : List String)
    : (scan labels description (line :: lines)).value =
          ((scan labels description lines).value.1, p :: (scan labels description lines).value.2)
        ∧ (scan labels description (line :: lines)).diagnostics =
          (scan labels description lines).diagnostics := by
  simp [scan, h, Recognition.point?, Recognition.anomaly?, Journal.note?]

/-- The lines of points that come back are scanned into them without a report. -/
theorem scan_map_line {points : List Point}
    (h : ∀ p ∈ points, p.Legible ∧ p.TrimmedTexts ∧ p.isValid = true) (labels : List String)
    (description : Option String)
    : (scan labels description (points.map Point.line)).value =
          (description, points.map Point.asSingle)
        ∧ (scan labels description (points.map Point.line)).diagnostics = [] := by
  induction points with
  | nil => exact ⟨rfl, rfl⟩
  | cons p points ih =>
      obtain ⟨⟨hlegible, htrimmed, hvalid⟩, hrest⟩ := List.forall_mem_cons.mp h
      obtain ⟨hvalue, hdiagnostics⟩ := ih hrest
      have hline := hlegible.ofNamedLine_line htrimmed hvalid
      rw [List.map_cons, (scan_cons_of_point hline labels description _).1,
        (scan_cons_of_point hline labels description _).2, hvalue]
      exact ⟨rfl, hdiagnostics⟩

end Log

-----------------------------------------------------------------------------------------
-- The header line
-----------------------------------------------------------------------------------------

/-- The description can be carried by the header line. -/
structure DataSet.Described (set : DataSet) : Prop where
  nonempty : set.description ≠ ""
  trimmed : Text.Trimmed set.description.toList
  equals : '=' ∉ set.description.toList
  sign : '#' ∉ set.description.toList
  feed : '\n' ∉ set.description.toList

theorem LabelLine.uncomment_eq_self {cs : List Char} (h : '#' ∉ cs)
    : uncomment cs = cs := by
  rw [uncomment]
  refine (List.map_congr_left fun c hc => if_neg ?_).trans (List.map_id cs)
  rintro rfl
  exact h hc

/-- The header line gives the description to the label it is written with. -/
theorem LabelLine.ofLine_headerLine {labels : List String} {set : DataSet}
    (hlabel : ∃ label ∈ labels, Text.sameLetters "branch" label = true) (hd : set.Described)
    : ofLine labels set.headerLine = .value set.description := by
  have hcs
      : uncomment set.headerLine.toList =
          "  Branch ".toList ++ '=' :: ' ' :: set.description.toList := by
    rw [DataSet.headerLine, String.toList_append, uncomment, List.map_append, ← uncomment,
      ← uncomment, uncomment_eq_self hd.sign]
    rfl
  have hword : ∀ c ∈ "  Branch ".toList, (c != '=') = true := List.all_eq_true.mp (by decide)
  have hlabels
      : labels.any (Text.sameLetters (String.ofList (Text.trimChars "  Branch ".toList))) = true := by
    have hlower : Text.lower (String.ofList (Text.trimChars "  Branch ".toList)) = Text.lower "branch" := by
      decide
    obtain ⟨label, hmem, hsame⟩ := hlabel
    rw [Text.sameLetters, ← hlower] at hsame
    exact List.any_eq_true.mpr ⟨label, hmem, hsame⟩
  have hrest : (' ' :: set.description.toList).contains '=' = false := by
    simpa using hd.equals
  unfold ofLine
  dsimp only
  rw [hcs, List.takeWhile_append_of_pos hword, List.dropWhile_append_of_pos hword,
    List.takeWhile_cons_of_neg (by simp), List.dropWhile_cons_of_neg (by simp), List.append_nil]
  simp only [hrest, hlabels, if_true, Text.trimChars_space_cons,
    Text.trimChars_of_trimmed hd.trimmed, String.ofList_toList]
  rfl

theorem DataSet.head?_headerLine (set : DataSet)
    : set.headerLine.toList.head? = some '#' := by
  rw [headerLine, String.toList_append]
  rfl

/-- After the header line the scan goes on with its description, and whether it is reported is left
to its shape. -/
theorem Log.scan_headerLine {labels : List String} {set : DataSet}
    (hlabel : ∃ label ∈ labels, Text.sameLetters "branch" label = true) (hd : set.Described)
    (lines : List String)
    : (scan labels none (set.headerLine :: lines)).value =
          (scan labels (some set.description) lines).value
        ∧ (scan labels none (set.headerLine :: lines)).diagnostics =
          (Recognition.ofNamedLine set.headerLine).anomaly?.toList
            ++ (scan labels (some set.description) lines).diagnostics := by
  have hpoint := Recognition.point?_of_comment set.head?_headerLine
  have hfound : describedBy labels set.headerLine = pure (some set.description) := by
    rw [describedBy, LabelLine.ofLine_headerLine hlabel hd]
  rw [scan]
  simp only [hpoint, hfound, pure_bind, if_neg hd.nonempty, settle]
  cases (Recognition.ofNamedLine set.headerLine).anomaly? with
  | none => exact ⟨rfl, rfl⟩
  | some d => exact ⟨rfl, rfl⟩

end BenchLog
