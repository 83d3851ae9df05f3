import BenchLog.Log.Groups
import BenchLog.Report

/-! Every anomaly is an event.
Anomalies are noted in both columns of a journal at once and later only moved, so that along a whole
computation the anomalies of its log are those of the other column, in the same order.
-/

namespace BenchLog

/-- The anomalies of the log are those of the other column. -/
def Journal.Agrees {α : Type} (x : Journal α) : Prop :=
  x.events.filterMap Event.anomaly? = x.diagnostics

namespace Journal.Agrees

variable {α β : Type}

theorem pure (a : α)
    : Agrees (Pure.pure a : Journal α) :=
  rfl

theorem bind {x : Journal α} {next : α → Journal β} (hx : x.Agrees) (hnext : ∀ a, (next a).Agrees)
    : (x >>= next).Agrees := by
  rw [Agrees, events_bind, diagnostics_bind, List.filterMap_append, hx, hnext]

theorem note (d : Diagnostic)
    : (Journal.note d).Agrees :=
  rfl

theorem note? (d : Option Diagnostic)
    : (Journal.note? d).Agrees := by
  cases d with
  | none => exact pure ()
  | some d => exact note d

theorem trace {e : Event} (h : e.anomaly? = none)
    : (Journal.trace e).Agrees := by
  rw [Agrees, Journal.trace, List.filterMap_cons_none h]
  rfl

end Journal.Agrees

open Journal (Agrees)

-----------------------------------------------------------------------------------------
-- Data sets
-----------------------------------------------------------------------------------------

theorem Point.agrees_merge (policy : Policy) (p q : Point)
    : (p.merge policy q).Agrees := by
  unfold Point.merge
  split
  · split
    · exact .bind (.note _) fun _ => .pure _
    · exact .pure _
  · exact .bind (.note _) fun _ => .pure _

namespace DataSet

theorem agrees_mergeAt (policy : Policy) (k : Key) (p : Point) (set : DataSet)
    : (set.mergeAt policy k p).Agrees := by
  unfold mergeAt
  split
  · exact .pure _
  · exact .bind (Point.agrees_merge _ _ _) fun _ => .pure _

theorem agrees_insert (policy : Policy) (p : Point) (set : DataSet)
    : (set.insert policy p).Agrees := by
  unfold DataSet.insert
  split
  · exact agrees_mergeAt _ _ _ _
  · exact .bind (.note _) fun _ => .pure _

/-- Points put in one after the other, by induction along their list. -/
theorem agrees_insertAll (policy : Policy) (points : List Point) (set : DataSet)
    : (set.insertAll policy points).Agrees := by
  induction points generalizing set with
  | nil => exact .pure _
  | cons p points ih => exact .bind (agrees_insert _ _ _) ih

theorem agrees_mergeEntries (policy : Policy) (entries : KeyMap Point) (set : DataSet)
    : (set.mergeEntries policy entries).Agrees := by
  induction entries generalizing set with
  | nil => exact .pure _
  | cons entry entries ih => exact .bind (agrees_mergeAt _ _ _ _) ih

theorem agrees_merge (policy : Policy) (set other : DataSet)
    : (set.merge policy other).Agrees := by
  unfold DataSet.merge
  split
  · exact .bind (.note _) fun _ => agrees_mergeEntries _ _ _
  · exact agrees_mergeEntries _ _ _

end DataSet

-----------------------------------------------------------------------------------------
-- Logs
-----------------------------------------------------------------------------------------

theorem agrees_describedBy (labels : List String) (line : String)
    : (describedBy labels line).Agrees := by
  unfold describedBy
  split
  · exact .pure _
  · exact .bind (.trace rfl) fun _ => .pure _
  · exact .pure _

namespace Log

theorem agrees_settle (current : Option String) (found : String)
    : (settle current found).Agrees := by
  unfold settle
  split
  · exact .pure _
  · split
    · exact .bind (.note _) fun _ => .pure _
    · exact .pure _

/-- Line by line, by induction along them. -/
theorem agrees_scan (labels : List String) (description : Option String) (lines : List String)
    : (scan labels description lines).Agrees := by
  induction lines generalizing description with
  | nil => exact .pure _
  | cons line lines ih =>
      rw [scan]
      refine .bind (.note? _) fun _ => ?_
      split
      · exact .bind (ih _) fun _ => .pure _
      · refine .bind (agrees_describedBy _ _) fun found => ?_
        split
        · split
          · exact ih _
          · exact .bind (agrees_settle _ _) ih
        · exact ih _

theorem agrees_ofLines (options : LogOptions) (lines : List String)
    : (ofLines options lines).Agrees :=
  .bind (agrees_scan _ _ _) fun _ =>
    .bind (.trace rfl) fun _ => .bind (DataSet.agrees_insertAll _ _ _) fun _ => .pure _

theorem agrees_readGroup (settings : ParseSettings) (path : Path) (text : String)
    (patterns : List String)
    : (readGroup settings path text patterns).Agrees :=
  .bind (.trace rfl) fun _ => agrees_ofLines _ _

/-- Group by group, by induction along them. -/
theorem agrees_mergeGroups (settings : ParseSettings) (path : Path) (text : String)
    (groups : List (List String)) (set : DataSet)
    : (mergeGroups settings path text groups set).Agrees := by
  induction groups generalizing set with
  | nil => exact .pure _
  | cons patterns groups ih =>
      exact .bind (agrees_readGroup _ _ _ _) fun _ => .bind (DataSet.agrees_merge _ _ _) ih

theorem agrees_readGroups (settings : ParseSettings) (path : Path) (text : String)
    : (readGroups settings path text).Agrees := by
  unfold readGroups
  split
  · exact .pure _
  · exact .bind (agrees_readGroup _ _ _ _) (agrees_mergeGroups _ _ _ _)

end Log

-----------------------------------------------------------------------------------------
-- Comparisons
-----------------------------------------------------------------------------------------

namespace Report

/-- Point by point of the newer set, by induction along them. -/
theorem agrees_compareEntries (baseline : DataSet) (points : KeyMap Point)
    : (compareEntries baseline points).Agrees := by
  induction points with
  | nil => exact .pure _
  | cons entry points ih =>
      obtain ⟨k, new⟩ := entry
      rw [compareEntries]
      split
      · exact .bind (.note _) fun _ => .bind ih fun _ => .pure _
      · exact .bind (.note? _) fun _ => .bind ih fun _ => .pure _

/-- The anomalies of a comparison are in the report; to its caller none are left. -/
theorem anomalies_compare (baseline new : DataSet) (thresholds : Thresholds)
    : (compare baseline new thresholds).events.filterMap Event.anomaly? =
        (compare baseline new thresholds).value.diagnostics
      ∧ (compare baseline new thresholds).diagnostics = [] := by
  have hentries : (compareEntries baseline new.points).Agrees := agrees_compareEntries _ _
  refine ⟨?_, rfl⟩
  rw [compare, Journal.events_bind, Journal.gather, Journal.events_pure, List.append_nil]
  exact hentries

end Report

end BenchLog
