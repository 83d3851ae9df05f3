import Mathlib
import BenchLog.Log
import BenchLog.Log.PatternGroup
import BenchLog.Proofs.Text.Lines

/-! Decoding bytes and splitting them into lines in either order.
The bytes of one decoded character are a single byte of ASCII or have no such byte among them, so
that no line break is ever inside a character, and a character that a line break cuts short is
garbled in the same way as one that the end of its line cuts short.
-/

namespace BenchLog.Text

-----------------------------------------------------------------------------------------
-- What a first byte announces
-----------------------------------------------------------------------------------------

theorem lt_of_ofByte_single {b : UInt8} (h : Lead.ofByte b = .single)
    : b < 0x80 := by
  unfold Lead.ofByte at h
  split_ifs at h
  assumption

theorem le_of_ofByte_none {b : UInt8} (h : Lead.ofByte b = .none)
    : 0x80 ≤ b := by
  unfold Lead.ofByte at h
  split_ifs at h <;> grind

theorem le_of_ofByte_two {b : UInt8} (h : Lead.ofByte b = .two)
    : 0xC2 ≤ b ∧ b < 0xE0 := by
  unfold Lead.ofByte at h
  split_ifs at h
  grind

/-- The bounds on the second byte keep the code point away from those of shorter forms. -/
theorem le_of_ofByte_three {b low high : UInt8} (h : Lead.ofByte b = .three low high)
    : 0xE0 ≤ b ∧ b < 0xF0 ∧ 0x80 ≤ low ∧ high ≤ 0xBF ∧ (b = 0xE0 → low = 0xA0) := by
  unfold Lead.ofByte at h
  split_ifs at h <;> cases h <;> grind

theorem le_of_ofByte_four {b low high : UInt8} (h : Lead.ofByte b = .four low high)
    : 0xF0 ≤ b ∧ b < 0xF8 ∧ 0x80 ≤ low ∧ high ≤ 0xBF ∧ (b = 0xF0 → low = 0x90) := by
  unfold Lead.ofByte at h
  split_ifs at h <;> cases h <;> grind

theorem within_iff {low high b : UInt8}
    : within low high b = true ↔ low ≤ b ∧ b ≤ high := by
  simp [within]

-----------------------------------------------------------------------------------------
-- The bytes of one character
-----------------------------------------------------------------------------------------

/-- A code point beyond ASCII is no break character. -/
theorem ofNat_not_break {n : Nat} (h : 0x80 ≤ n)
    : Char.ofNat n ≠ '\n' ∧ Char.ofNat n ≠ '\r' := by
  by_cases hn : n.isValidChar
  · have hcode := Char.toNat_ofNat n
    rw [if_pos hn] at hcode
    constructor
    · intro he
      rw [he] at hcode
      exact absurd hcode (by simp; omega)
    · intro he
      rw [he] at hcode
      exact absurd hcode (by simp; omega)
  · rw [Char.ofNat, dif_neg hn]
    decide

/-- The bytes in front are read as the character, whatever follows them, as long as it begins as
the rest does or is nothing. -/
structure Opens (front rest : List UInt8) (c : Char) : Prop where
  nonempty : front ≠ []
  /-- A byte of ASCII stands for itself and is no part of another character. -/
  ascii : (∃ b, front = [b] ∧ b < 0x80 ∧ c = Char.ofNat b.toNat)
    ∨ (∀ b ∈ front, 0x80 ≤ b) ∧ c ≠ '\n' ∧ c ≠ '\r'
  decode : ∀ bytes, bytes = [] ∨ bytes.head? = rest.head? →
    decodeUtf8 (front ++ bytes) = c :: decodeUtf8 bytes

/-- Bytes that are read as the same character whatever follows them. -/
theorem opens_of_forall {front : List UInt8} {c : Char} (hne : front ≠ [])
    (high : ∀ b ∈ front, 0x80 ≤ b) (hc : c ≠ '\n' ∧ c ≠ '\r')
    (h : ∀ bytes, decodeUtf8 (front ++ bytes) = c :: decodeUtf8 bytes) (rest : List UInt8)
    : Opens front rest c :=
  ⟨hne, Or.inr ⟨high, hc⟩, fun bytes _ => h bytes⟩

/-- Bytes that begin a character are garbled unless the next byte continues it. -/
theorem opens_or_continues {front : List UInt8} {continues : UInt8 → Bool} (hne : front ≠ [])
    (high : ∀ b ∈ front, 0x80 ≤ b) (hend : decodeUtf8 front = [replacement])
    (hnext : ∀ b, continues b = false → ∀ bytes,
      decodeUtf8 (front ++ b :: bytes) = replacement :: decodeUtf8 (b :: bytes))
    (rest : List UInt8)
    : Opens front rest replacement ∨ ∃ b bytes, rest = b :: bytes ∧ continues b = true := by
  have hnil : decodeUtf8 (front ++ []) = replacement :: decodeUtf8 [] := by
    rw [List.append_nil, hend, decodeUtf8]
  by_cases hgo : ∃ b bytes, rest = b :: bytes ∧ continues b = true
  · exact Or.inr hgo
  · refine Or.inl ⟨hne, Or.inr ⟨high, by decide⟩, ?_⟩
    rintro bytes (rfl | hhead)
    · exact hnil
    · cases rest with
      | nil => rwa [List.head?_eq_none_iff.mp hhead]
      | cons b more =>
          obtain ⟨tail, rfl⟩ := List.head?_eq_some_iff.mp hhead
          exact hnext b (Bool.eq_false_iff.mpr fun hb => hgo ⟨b, more, rfl, hb⟩) tail

/-- The code points of two bytes are beyond ASCII, by the bound on the first one. -/
theorem le_code_two {b : UInt8} (h : Lead.ofByte b = .two) (b₁ : UInt8)
    : 0x80 ≤ b.toNat % 32 * 64 + payload b₁ := by
  obtain ⟨hb, hb'⟩ := le_of_ofByte_two h
  rw [UInt8.le_iff_toNat_le] at hb
  rw [UInt8.lt_iff_toNat_lt] at hb'
  simp at hb hb'
  omega

/-- The code points of three bytes are, by the bound on the second one if the first one is the
least. -/
theorem le_code_three {b low high b₁ : UInt8} (h : Lead.ofByte b = .three low high)
    (h₁ : within low high b₁ = true) (b₂ : UInt8)
    : 0x80 ≤ (b.toNat % 16 * 64 + payload b₁) * 64 + payload b₂ := by
  obtain ⟨hb, hb', -, hhigh, hleast⟩ := le_of_ofByte_three h
  obtain ⟨hl, hu⟩ := within_iff.mp h₁
  by_cases he : b = 0xE0
  · have hlow := hleast he
    subst he
    subst hlow
    simp [UInt8.le_iff_toNat_le] at hl hu hhigh
    simp only [payload]
    omega
  · have hne : b.toNat ≠ 0xE0 := fun hn => he (UInt8.toNat_inj.mp hn)
    simp [UInt8.le_iff_toNat_le, UInt8.lt_iff_toNat_lt] at hb hb'
    omega

theorem le_code_four {b low high b₁ : UInt8} (h : Lead.ofByte b = .four low high)
    (h₁ : within low high b₁ = true) (b₂ b₃ : UInt8)
    : 0x80 ≤ ((b.toNat % 8 * 64 + payload b₁) * 64 + payload b₂) * 64 + payload b₃ := by
  obtain ⟨hb, hb', -, hhigh, hleast⟩ := le_of_ofByte_four h
  obtain ⟨hl, hu⟩ := within_iff.mp h₁
  by_cases he : b = 0xF0
  · have hlow := hleast he
    subst he
    subst hlow
    simp [UInt8.le_iff_toNat_le] at hl hu hhigh
    simp only [payload]
    omega
  · have hne : b.toNat ≠ 0xF0 := fun hn => he (UInt8.toNat_inj.mp hn)
    simp [UInt8.le_iff_toNat_le, UInt8.lt_iff_toNat_lt] at hb hb'
    omega

theorem exists_opens_two {b : UInt8} (hlead : Lead.ofByte b = .two) (bytes : List UInt8)
    : ∃ front rest c, b :: bytes = front ++ rest ∧ Opens front rest c := by
  have hb : 0x80 ≤ b := by grind [le_of_ofByte_two hlead]
  have hfirst : Opens [b] bytes replacement ∨ ∃ b₁ more, bytes = b₁ :: more ∧ isContinuation b₁ := by
    refine opens_or_continues (by simp) (by simpa) (by simp [decodeUtf8, hlead]) ?_ bytes
    intro b₁ h₁ more
    rw [decodeUtf8.eq_def]
    simp [hlead, h₁]
  obtain hfirst | ⟨b₁, bytes, rfl, h₁⟩ := hfirst
  · exact ⟨[b], bytes, replacement, rfl, hfirst⟩
  have hb₁ := (within_iff.mp h₁).1
  refine ⟨[b, b₁], bytes, Char.ofNat (b.toNat % 32 * 64 + payload b₁), rfl,
    opens_of_forall (by simp) (by simp [hb, hb₁]) (ofNat_not_break (le_code_two hlead b₁)) ?_ _⟩
  intro more
  rw [decodeUtf8.eq_def]
  simp [hlead, h₁]

theorem exists_opens_three {b low high : UInt8} (hlead : Lead.ofByte b = .three low high)
    (bytes : List UInt8)
    : ∃ front rest c, b :: bytes = front ++ rest ∧ Opens front rest c := by
  obtain ⟨hb, -, hlow, -, -⟩ := le_of_ofByte_three hlead
  replace hb : 0x80 ≤ b := by grind
  have hfirst
      : Opens [b] bytes replacement ∨ ∃ b₁ more, bytes = b₁ :: more ∧ within low high b₁ := by
    refine opens_or_continues (by simp) (by simpa) (by simp [decodeUtf8, hlead]) ?_ bytes
    intro b₁ h₁ more
    rw [decodeUtf8.eq_def]
    simp [hlead, h₁]
  obtain hfirst | ⟨b₁, bytes, rfl, h₁⟩ := hfirst
  · exact ⟨[b], bytes, replacement, rfl, hfirst⟩
  have hb₁ : 0x80 ≤ b₁ := by grind [within_iff.mp h₁]
  have hsecond
      : Opens [b, b₁] bytes replacement ∨ ∃ b₂ more, bytes = b₂ :: more ∧ isContinuation b₂ := by
    refine opens_or_continues (by simp) (by simp [hb, hb₁]) (by simp [decodeUtf8, hlead, h₁]) ?_ bytes
    intro b₂ h₂ more
    rw [decodeUtf8.eq_def]
    simp [hlead, h₁, h₂]
  obtain hsecond | ⟨b₂, bytes, rfl, h₂⟩ := hsecond
  · exact ⟨[b, b₁], bytes, replacement, rfl, hsecond⟩
  have hb₂ := (within_iff.mp h₂).1
  refine ⟨[b, b₁, b₂], bytes,
    Char.ofNat ((b.toNat % 16 * 64 + payload b₁) * 64 + payload b₂), rfl,
    opens_of_forall (by simp) (by simp [hb, hb₁, hb₂])
      (ofNat_not_break (le_code_three hlead h₁ b₂)) ?_ _⟩
  intro more
  rw [decodeUtf8.eq_def]
  simp [hlead, h₁, h₂]

theorem exists_opens_four {b low high : UInt8} (hlead : Lead.ofByte b = .four low high)
    (bytes : List UInt8)
    : ∃ front rest c, b :: bytes = front ++ rest ∧ Opens front rest c := by
  obtain ⟨hb, -, hlow, -, -⟩ := le_of_ofByte_four hlead
  replace hb : 0x80 ≤ b := by grind
  have hfirst
      : Opens [b] bytes replacement ∨ ∃ b₁ more, bytes = b₁ :: more ∧ within low high b₁ := by
    refine opens_or_continues (by simp) (by simpa) (by simp [decodeUtf8, hlead]) ?_ bytes
    intro b₁ h₁ more
    rw [decodeUtf8.eq_def]
    simp [hlead, h₁]
  obtain hfirst | ⟨b₁, bytes, rfl, h₁⟩ := hfirst
  · exact ⟨[b], bytes, replacement, rfl, hfirst⟩
  have hb₁ : 0x80 ≤ b₁ := by grind [within_iff.mp h₁]
  have hsecond
      : Opens [b, b₁] bytes replacement ∨ ∃ b₂ more, bytes = b₂ :: more ∧ isContinuation b₂ := by
    refine opens_or_continues (by simp) (by simp [hb, hb₁]) (by simp [decodeUtf8, hlead, h₁]) ?_ bytes
    intro b₂ h₂ more
    rw [decodeUtf8.eq_def]
    simp [hlead, h₁, h₂]
  obtain hsecond | ⟨b₂, bytes, rfl, h₂⟩ := hsecond
  · exact ⟨[b, b₁], bytes, replacement, rfl, hsecond⟩
  have hb₂ := (within_iff.mp h₂).1
  have hthird
      : Opens [b, b₁, b₂] bytes replacement
        ∨ ∃ b₃ more, bytes = b₃ :: more ∧ isContinuation b₃ := by
    refine opens_or_continues (by simp) (by simp [hb, hb₁, hb₂])
      (by simp [decodeUtf8, hlead, h₁, h₂]) ?_ bytes
    intro b₃ h₃ more
    rw [decodeUtf8.eq_def]
    simp [hlead, h₁, h₂, h₃]
  obtain hthird | ⟨b₃, bytes, rfl, h₃⟩ := hthird
  · exact ⟨[b, b₁, b₂], bytes, replacement, rfl, hthird⟩
  have hb₃ := (within_iff.mp h₃).1
  refine ⟨[b, b₁, b₂, b₃], bytes,
    Char.ofNat (((b.toNat % 8 * 64 + payload b₁) * 64 + payload b₂) * 64 + payload b₃), rfl,
    opens_of_forall (by simp) (by simp [hb, hb₁, hb₂, hb₃])
      (ofNat_not_break (le_code_four hlead h₁ b₂ b₃)) ?_ _⟩
  intro more
  rw [decodeUtf8.eq_def]
  simp [hlead, h₁, h₂, h₃]

/-- Every sequence of bytes opens with those of a character, by what the first byte announces. -/
theorem exists_opens {bytes : List UInt8} (hne : bytes ≠ [])
    : ∃ front rest c, bytes = front ++ rest ∧ Opens front rest c := by
  obtain ⟨b, bytes, rfl⟩ := List.exists_cons_of_ne_nil hne
  cases hlead : Lead.ofByte b with
  | single =>
      refine ⟨[b], bytes, Char.ofNat b.toNat, rfl, by simp,
        Or.inl ⟨b, rfl, lt_of_ofByte_single hlead, rfl⟩, ?_⟩
      intro more _
      rw [decodeUtf8.eq_def]
      simp [hlead]
  | none =>
      have hb := le_of_ofByte_none hlead
      refine ⟨[b], bytes, replacement, rfl,
        opens_of_forall (by simp) (by simpa) (by decide) ?_ bytes⟩
      intro more
      rw [decodeUtf8.eq_def]
      simp [hlead]
  | two => exact exists_opens_two hlead bytes
  | three low high => exact exists_opens_three hlead bytes
  | four low high => exact exists_opens_four hlead bytes

-----------------------------------------------------------------------------------------
-- Lines of decoded bytes
-----------------------------------------------------------------------------------------

section Split

variable {α : Type} [DecidableEq α] {feed ret : α}

/-- A line is empty or begins as what is split does. -/
theorem headD_splitLines (cs : List α)
    : (splitLines feed ret cs).headD [] = []
      ∨ ((splitLines feed ret cs).headD []).head? = cs.head? := by
  cases cs with
  | nil => exact Or.inl rfl
  | cons c cs =>
      by_cases hc : c = feed
      · rw [hc, splitLines_feed_cons]
        exact Or.inl rfl
      · by_cases hr : c = ret ∧ cs.head? = some feed
        · obtain ⟨rfl, hhead⟩ := hr
          obtain ⟨cs, rfl⟩ := List.head?_eq_some_iff.mp hhead
          rw [splitLines_ret_feed_cons hc]
          exact Or.inl rfl
        · rw [splitLines_cons hc hr]
          exact Or.inr rfl

/-- What holds no feed and ends in no line break is part of the first line. -/
theorem splitLines_append {front : List α} (hne : front ≠ []) (hfeed : feed ∉ front)
    {rest : List α} (hret : ret ∈ front → front = [ret] ∧ rest.head? ≠ some feed)
    : splitLines feed ret (front ++ rest) =
        (front ++ (splitLines feed ret rest).headD []) :: (splitLines feed ret rest).tail := by
  induction front with
  | nil => exact absurd rfl hne
  | cons c cs ih =>
      simp only [List.mem_cons, not_or] at hfeed
      cases cs with
      | nil =>
          rw [List.singleton_append, splitLines_cons (Ne.symm hfeed.1)]
          · rfl
          · rintro ⟨rfl, hhead⟩
            exact (hret (by simp)).2 hhead
      | cons d cs =>
          have hnot : ret ∉ c :: d :: cs := fun hmem => by simpa using (hret hmem).1
          simp only [List.mem_cons, not_or] at hnot
          have hrest := ih (by simp) hfeed.2 fun hmem => absurd hmem (by simpa using hnot.2)
          rw [List.cons_append, splitLines_cons (Ne.symm hfeed.1) (fun h => hnot.1 h.1.symm), hrest]
          rfl

end Split

/-- Bytes of ASCII are told apart by the characters they stand for. -/
theorem eq_of_ofNat_eq {b d : UInt8} (hb : b < 0x80) (hd : d < 0x80)
    (h : Char.ofNat b.toNat = Char.ofNat d.toNat)
    : b = d := by
  have hcode : ∀ a : UInt8, a < 0x80 → (Char.ofNat a.toNat).toNat = a.toNat := by
    intro a ha
    rw [UInt8.lt_iff_toNat_lt] at ha
    have hvalid : a.toNat.isValidChar := Or.inl (by simp at ha; omega)
    rw [Char.toNat_ofNat, if_pos hvalid]
  apply UInt8.toNat_inj.mp
  rw [← hcode b hb, h, hcode d hd]

theorem Opens.decode_append {front rest : List UInt8} {c : Char} (h : Opens front rest c)
    : decodeUtf8 (front ++ rest) = c :: decodeUtf8 rest :=
  h.decode rest (Or.inr rfl)

/-- Only a feed is decoded as one. -/
theorem head?_of_head?_decodeUtf8 {bytes : List UInt8}
    (h : (decodeUtf8 bytes).head? = some '\n')
    : bytes.head? = some 10 := by
  have hne : bytes ≠ [] := by
    rintro rfl
    simp [decodeUtf8] at h
  obtain ⟨front, rest, c, rfl, hopens⟩ := exists_opens hne
  rw [hopens.decode_append, List.head?_cons, Option.some.injEq] at h
  obtain ⟨b, rfl, hb, hc⟩ | ⟨-, hc, -⟩ := hopens.ascii
  · obtain rfl := eq_of_ofNat_eq hb (by decide : (10 : UInt8) < 0x80) (hc.symm.trans h)
    rfl
  · exact absurd h hc

theorem decodeUtf8_feed_cons (bytes : List UInt8)
    : decodeUtf8 (10 :: bytes) = '\n' :: decodeUtf8 bytes := by
  rw [decodeUtf8.eq_def]
  rfl

/-- Decoding goes line by line, by induction along the characters of the bytes. -/
theorem splitLines_decodeUtf8 (bytes : List UInt8)
    : splitLines '\n' '\r' (decodeUtf8 bytes) = (splitLines 10 13 bytes).map decodeUtf8 := by
  induction hn : bytes.length using Nat.strongRecOn generalizing bytes with
  | ind n ih =>
      by_cases hne : bytes = []
      · rw [hne]
        rfl
      obtain ⟨front, rest, c, rfl, hopens⟩ := exists_opens hne
      have hlength : 0 < front.length := List.length_pos_iff.mpr hopens.nonempty
      rw [List.length_append] at hn
      have hrest := ih rest.length (by omega) rest rfl
      by_cases hfeed : front = [10]
      · rw [hfeed, List.singleton_append, decodeUtf8_feed_cons, splitLines_feed_cons,
          splitLines_feed_cons, hrest]
        rfl
      by_cases hbreak : front = [13] ∧ rest.head? = some 10
      · obtain ⟨rfl, hhead⟩ := hbreak
        obtain ⟨more, rfl⟩ := List.head?_eq_some_iff.mp hhead
        have hc : c = '\r' := by
          obtain ⟨b, hb, -, rfl⟩ | ⟨hhigh, -⟩ := hopens.ascii
          · rw [← (List.cons.inj hb).1]
            rfl
          · exact absurd (hhigh 13 (by simp)) (by decide)
        have hmore := ih more.length (by simp at hn; omega) more rfl
        rw [hopens.decode_append, hc, decodeUtf8_feed_cons, List.singleton_append,
          splitLines_ret_feed_cons (by decide), splitLines_ret_feed_cons (by decide), hmore]
        rfl
      -- what is left is a character that is no break, with the rest of its line behind it
      have hc : c ≠ '\n' ∧ ¬ (c = '\r' ∧ (decodeUtf8 rest).head? = some '\n') := by
        obtain ⟨b, rfl, hb, rfl⟩ | ⟨-, hfeed, hret⟩ := hopens.ascii
        · refine ⟨fun he => hfeed ?_, fun he => hbreak ⟨?_, head?_of_head?_decodeUtf8 he.2⟩⟩
          · rw [eq_of_ofNat_eq hb (by decide : (10 : UInt8) < 0x80) he]
          · rw [eq_of_ofNat_eq hb (by decide : (13 : UInt8) < 0x80) he.1]
        · exact ⟨hfeed, fun he => hret he.1⟩
      have hascii : ∀ a ∈ front, a < 0x80 → front = [a] := by
        intro a ha hlow
        obtain ⟨b, rfl, -⟩ | ⟨hhigh, -⟩ := hopens.ascii
        · rw [List.mem_singleton.mp ha]
        · exact absurd (hhigh a ha) (UInt8.not_le.mpr hlow)
      have hline := hopens.decode _ (@headD_splitLines _ _ (10 : UInt8) 13 rest)
      rw [hopens.decode_append, splitLines_cons hc.1 hc.2, hrest,
        splitLines_append hopens.nonempty (fun hmem => hfeed (hascii 10 hmem (by decide)))
          (fun hmem => ?_), List.map_cons, hline, List.map_tail]
      · congr 2
        cases splitLines 10 13 rest with
        | nil => rfl
        | cons line lines => rfl
      · have hfront := hascii 13 hmem (by decide)
        exact ⟨hfront, fun hhead => hbreak ⟨hfront, hhead⟩⟩

theorem map_textOfBytes_byteLines (bytes : List UInt8)
    : (byteLines bytes).map textOfBytes = lines (textOfBytes bytes) := by
  rw [lines, textOfBytes, String.toList_ofList, splitLines_decodeUtf8, List.map_map]
  rfl

end BenchLog.Text

namespace BenchLog

/-- A log read from its bytes line by line is the log read from the text of all of them, with the
same anomalies and events, since both ways give the same lines. So every group of patterns chooses
among the lines that are read without one. -/
theorem Log.ofBytes_eq_ofText (options : LogOptions) (bytes : List UInt8)
    : ofBytes options bytes = ofText options (Text.textOfBytes bytes)
      ∧ (Text.byteLines bytes).map Text.textOfBytes = Text.lines (Text.textOfBytes bytes)
      ∧ ∀ group : PatternGroup,
          group.lines (Text.textOfBytes bytes) =
            ((Text.byteLines bytes).map Text.textOfBytes).filter group.keeps := by
  have hlines := Text.map_textOfBytes_byteLines bytes
  refine ⟨?_, hlines, fun group => ?_⟩
  · rw [ofBytes, ofText, hlines]
  · rw [PatternGroup.lines, hlines]

/-- A character cut short by a return and a feed, and a return at the end of the bytes. -/
example
    : (Text.byteLines [0xE2, 0x82, 13, 10, 10, 0x61, 13]).map Text.textOfBytes =
        ["\uFFFD", "", "a\r"] := by
  decide

end BenchLog
