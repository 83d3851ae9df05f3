/-! Lines of a text, of characters or of bytes alike.
A feed ends a line, one return right before it belongs to the line break, and a feed at the very
end opens no further line.
-/

namespace BenchLog.Text

/-- The lines of a sequence in which `feed` ends a line and one `ret` before it is dropped. -/
def splitLines {α : Type} [DecidableEq α] (feed ret : α) : List α → List (List α)
  | [] => []
  | [c] => if c = feed then [[]] else [[c]]
  | c :: d :: cs =>
      if c = feed then
        [] :: splitLines feed ret (d :: cs)
      else if c = ret ∧ d = feed then
        [] :: splitLines feed ret cs
      else
        match splitLines feed ret (d :: cs) with
        | [] => [[c]]
        | line :: lines => (c :: line) :: lines

def lines (s : String) : List String :=
  (splitLines '\n' '\r' s.toList).map String.ofList

def byteLines (bytes : List UInt8) : List (List UInt8) :=
  splitLines 10 13 bytes

/-- A line ends before the first feed, by induction along the split. -/
theorem feed_not_mem_of_mem_splitLines {α : Type} [DecidableEq α] (feed ret : α) (cs : List α)
    : ∀ line ∈ splitLines feed ret cs, feed ∉ line := by
  fun_induction splitLines feed ret cs with
  | case1 => simp
  | case2 => simp
  | case3 c hc => simpa using fun h => hc h.symm
  | case4 cs d ih =>
      intro line hl
      rcases List.mem_cons.mp hl with rfl | hl
      · simp
      · exact ih line hl
  | case5 c d cs hc _ ih =>
      intro line hl
      rcases List.mem_cons.mp hl with rfl | hl
      · simp
      · exact ih line hl
  | case6 c d cs hc _ _ _ => simpa using fun h => hc h.symm
  | case7 c d cs hc _ line lines he ih =>
      intro l hl
      rcases List.mem_cons.mp hl with rfl | hl
      · have := ih line (by simp [he])
        simpa [this] using fun h => hc h.symm
      · exact ih l (by simp [he, hl])

theorem feed_not_mem_lines (s : String)
    : ∀ line ∈ lines s, '\n' ∉ line.toList := by
  intro line hl
  obtain ⟨cs, hc, rfl⟩ := List.mem_map.mp hl
  simpa using feed_not_mem_of_mem_splitLines '\n' '\r' s.toList cs hc

end BenchLog.Text
