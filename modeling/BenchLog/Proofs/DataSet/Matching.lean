import BenchLog.Proofs.Log.Reported

/-! Points meet points of their own key.
In a sound data set every point stands under its own key, so that neither putting in a point nor
merging another sound data set ever reports points with different keys.
-/

namespace BenchLog

open DataSet

/-- No two points with different keys were to be merged. -/
def Journal.MatchesKeys {α : Type} (x : Journal α) : Prop :=
  ∀ existing incoming, Diagnostic.keyMismatch existing incoming ∉ x.diagnostics

namespace Journal.MatchesKeys

variable {α β : Type}

theorem pure (a : α)
    : MatchesKeys (Pure.pure a : Journal α) :=
  fun _ _ => List.not_mem_nil

theorem bind {x : Journal α} {next : α → Journal β} (hx : x.MatchesKeys)
    (hnext : (next x.value).MatchesKeys)
    : (x >>= next).MatchesKeys := by
  intro existing incoming hmem
  rw [diagnostics_bind, List.mem_append] at hmem
  exact hmem.elim (hx existing incoming) (hnext existing incoming)

theorem note {d : Diagnostic} (h : ∀ existing incoming, d ≠ .keyMismatch existing incoming)
    : (Journal.note d).MatchesKeys :=
  fun existing incoming hmem => h existing incoming (List.mem_singleton.mp hmem).symm

end Journal.MatchesKeys

namespace DataSet

variable {P : Point → Prop} {policy : Policy} {set other : DataSet}

theorem Sound.matchesKeys_mergeAt (h : set.Sound P) {k : Key} {p : Point} (hkey : p.key = k)
    : (set.mergeAt policy k p).MatchesKeys := by
  intro existing incoming hmem
  cases h.isDuplicate_of_mem_mergeAt hkey hmem

theorem Sound.matchesKeys_insert (h : set.Sound P) (p : Point)
    : (set.insert policy p).MatchesKeys := by
  unfold DataSet.insert
  split
  · exact h.matchesKeys_mergeAt rfl
  · exact .bind (.note (by simp)) (.pure _)

/-- Points put in one after the other, by induction along their list. -/
theorem Sound.matchesKeys_insertAll (h : set.Sound P) (keeps : Keeps P policy)
    {points : List Point} (hp : ∀ p ∈ points, p.isValid = true → P p)
    : (set.insertAll policy points).MatchesKeys := by
  induction points generalizing set with
  | nil => exact .pure _
  | cons p points ih =>
      obtain ⟨hhead, htail⟩ := List.forall_mem_cons.mp hp
      exact .bind (h.matchesKeys_insert p) (ih (h.insert keeps hhead) htail)

theorem Sound.matchesKeys_mergeEntries (h : set.Sound P) (keeps : Keeps P policy)
    {entries : KeyMap Point} (hentries : ∀ {k p}, (k, p) ∈ entries → p.key = k ∧ P p)
    : (set.mergeEntries policy entries).MatchesKeys := by
  induction entries generalizing set with
  | nil => exact .pure _
  | cons entry entries ih =>
      obtain ⟨k, p⟩ := entry
      obtain ⟨hkey, hp⟩ := hentries List.mem_cons_self
      exact .bind (h.matchesKeys_mergeAt hkey)
        (ih (h.mergeAt keeps hkey hp) fun hmem => hentries (List.mem_cons_of_mem _ hmem))

theorem Sound.matchesKeys_merge (h : set.Sound P) (hother : other.Sound P)
    (keeps : Keeps P policy)
    : (set.merge policy other).MatchesKeys := by
  have hentries : (set.mergeEntries policy other.points).MatchesKeys :=
    h.matchesKeys_mergeEntries keeps fun hmem => ⟨hother.keyed hmem, hother.all hmem⟩
  unfold DataSet.merge
  split
  · exact .bind (.note (by simp)) hentries
  · exact hentries

end DataSet

/-- A log puts the points of its lines into an empty set. -/
theorem Log.matchesKeys_ofLines (options : LogOptions) (lines : List String)
    : (ofLines options lines).MatchesKeys := by
  intro existing incoming hmem
  rcases kind_of_mem_ofLines hmem with h | h | h <;> cases h

end BenchLog
