import Mathlib
import QubitLang.Text.Lines

/-! Lines and columns. The place of an offset counts the line ends before it and the characters
behind the last one, later offsets have later places, and the offset is what its place stands
for. -/

namespace QubitLang.LineIndex

def lineStart (text : Text) : Nat → Nat
  | 0 => 0
  | offset + 1 => if text[offset]? = some '\n' then offset + 1 else lineStart text offset

/-- Looks for the first start behind an offset, between two bounds: the one in the middle tells
which half to go on with. -/
def search (starts : List Nat) (offset : Int) (low high : Nat) : Nat :=
  if low < high then
    let middle := (low + high) / 2
    if offset < (starts.getD middle 0 : Nat) then search starts offset low middle
    else search starts offset (middle + 1) high
  else low
termination_by high - low

def begun (starts : List Nat) (offset : Int) : Nat :=
  starts.countP fun (start : Nat) => decide ((start : Int) ≤ offset)

/-! ## The starts of lines -/

theorem lt_of_mem_startsAfter : ∀ {text : Text} {base start : Nat},
    start ∈ startsAfter base text → base < start
  | character :: rest, base, start, member => by
      unfold startsAfter at member
      split at member
      · rcases List.mem_cons.mp member with rfl | later
        · exact Nat.lt_succ_self base
        · exact Nat.lt_of_succ_lt (lt_of_mem_startsAfter later)
      · exact Nat.lt_of_succ_lt (lt_of_mem_startsAfter member)

theorem pairwise_startsAfter : ∀ (text : Text) (base : Nat),
    (base :: startsAfter base text).Pairwise (· < ·)
  | [], base => List.pairwise_singleton _ base
  | character :: rest, base => by
      have behind := pairwise_startsAfter rest (base + 1)
      refine List.pairwise_cons.mpr ⟨fun start => lt_of_mem_startsAfter, ?_⟩
      unfold startsAfter
      split
      · exact behind
      · exact (List.pairwise_cons.mp behind).2

/-- The lines that have begun at an offset are as many as the line ends before it. -/
theorem countP_startsAfter : ∀ (text : Text) (base offset : Nat),
    (startsAfter base text).countP (fun start => decide (start ≤ base + offset)) =
      (text.take offset).count '\n'
  | [], _, _ => by simp [startsAfter]
  | character :: rest, base, 0 => by
      rw [List.take_zero, List.count_nil, List.countP_eq_zero]
      intro start member
      have behind := lt_of_mem_startsAfter member
      rw [decide_eq_true_eq]
      omega
  | character :: rest, base, offset + 1 => by
      have later := countP_startsAfter rest (base + 1) offset
      rw [show base + 1 + offset = base + (offset + 1) by omega] at later
      unfold startsAfter
      by_cases ends : character = '\n'
      · rw [if_pos ends, List.countP_cons, later, ends, List.take_succ_cons, List.count_cons_self,
          if_pos (by rw [decide_eq_true_eq]; omega)]
      · rw [if_neg ends, later, List.take_succ_cons, List.count_cons_of_ne ends]

/-! ## Offsets of lines and columns -/

theorem foldl_lengths (lines : List Text) (column : Nat) :
    lines.foldl (fun offset content => offset + content.length + 1) column =
      lines.foldl (fun offset content => offset + content.length + 1) 0 + column := by
  induction lines generalizing column with
  | nil => simp
  | cons line lines induction =>
      rw [List.foldl_cons, List.foldl_cons, induction, induction (0 + line.length + 1)]
      omega

theorem offsetOf_add (text : Text) (line column : Nat) :
    offsetOf text line column = offsetOf text line 0 + column :=
  foldl_lengths _ column

theorem offsetOf_lineEnd (rest : Text) (line column : Nat) :
    offsetOf ('\n' :: rest) (line + 1) column = offsetOf rest line column + 1 := by
  have split : ('\n' :: rest).splitOn '\n' = [] :: rest.splitOn '\n' := by
    rw [List.splitOn_cons_eq_if_modifyHead, if_pos (beq_self_eq_true _)]
  rw [offsetOf_add, offsetOf_add rest, offsetOf, split, List.take_succ_cons, List.foldl_cons,
    foldl_lengths, ← offsetOf, List.length_nil]
  omega

theorem offsetOf_cons {character : Char} (goesOn : character ≠ '\n') (rest : Text)
    (line column : Nat) :
    offsetOf (character :: rest) (line + 1) column = offsetOf rest (line + 1) column + 1 := by
  obtain ⟨first, lines, split⟩ := List.exists_cons_of_ne_nil (List.splitOn_ne_nil '\n' rest)
  rw [offsetOf_add, offsetOf_add rest, offsetOf, offsetOf, List.splitOn_cons_eq_if_modifyHead,
    if_neg (by simpa using goesOn), split, List.modifyHead_cons, List.take_succ_cons,
    List.take_succ_cons, List.foldl_cons, List.foldl_cons, foldl_lengths,
    foldl_lengths _ (0 + first.length + 1), List.length_cons]
  omega

theorem eq_offsetOf_of_getElem? : ∀ {text : Text} {base line start : Nat},
    (base :: startsAfter base text)[line]? = some start → start = base + offsetOf text line 0
  | _, base, 0, start, found => by
      cases found
      rfl
  | character :: rest, base, line + 1, start, found => by
      rw [List.getElem?_cons_succ] at found
      unfold startsAfter at found
      by_cases ends : character = '\n'
      · subst ends
        rw [if_pos rfl] at found
        rw [eq_offsetOf_of_getElem? found, offsetOf_lineEnd]
        omega
      · rw [if_neg ends] at found
        have behind : ((base + 1) :: startsAfter (base + 1) rest)[line + 1]? = some start := found
        rw [eq_offsetOf_of_getElem? behind, offsetOf_cons ends]
        omega

/-! ## The line of an offset -/

theorem lineStart_le (text : Text) : ∀ offset, lineStart text offset ≤ offset
  | 0 => Nat.le_refl 0
  | offset + 1 => by
      unfold lineStart
      split
      · exact Nat.le_refl _
      · exact Nat.le_succ_of_le (lineStart_le text offset)

theorem count_take_succ (text : Text) (offset : Nat) :
    (text.take (offset + 1)).count '\n' =
      (text.take offset).count '\n' + if text[offset]? = some '\n' then 1 else 0 := by
  rw [List.take_add_one, List.count_append]
  cases text[offset]? with
  | none => rfl
  | some character => simp [List.count_singleton]

theorem lineStart_lineEnd (rest : Text) :
    ∀ offset, lineStart ('\n' :: rest) (offset + 1) = lineStart rest offset + 1
  | 0 => rfl
  | offset + 1 => by
      rw [lineStart, lineStart_lineEnd rest offset, List.getElem?_cons_succ, lineStart]
      split <;> rfl

theorem lineStart_cons {character : Char} (goesOn : character ≠ '\n') (rest : Text) :
    ∀ offset, lineStart (character :: rest) (offset + 1) =
      if (rest.take offset).count '\n' = 0 then 0 else lineStart rest offset + 1
  | 0 => by simp [lineStart, goesOn]
  | offset + 1 => by
      rw [lineStart, lineStart_cons goesOn rest offset, List.getElem?_cons_succ, count_take_succ,
        lineStart]
      by_cases ends : rest[offset]? = some '\n'
      · simp [ends]
      · simp [ends]

/-- The line of an offset is the one that begins behind the last line end before it. -/
theorem getElem?_starts : ∀ (text : Text) (base offset : Nat),
    (base :: startsAfter base text)[(text.take offset).count '\n']? =
      some (base + lineStart text offset)
  | _, _, 0 => rfl
  | [], base, offset + 1 => by
      have start : ∀ offset, lineStart [] offset = 0 := by
        intro offset
        induction offset with
        | zero => rfl
        | succ offset induction => exact induction
      rw [start]
      rfl
  | character :: rest, base, offset + 1 => by
      have behind := getElem?_starts rest (base + 1) offset
      unfold startsAfter
      by_cases ends : character = '\n'
      · subst ends
        rw [if_pos rfl, List.take_succ_cons, List.count_cons_self, List.getElem?_cons_succ, behind,
          lineStart_lineEnd]
        congr 1
        omega
      · rw [if_neg ends, List.take_succ_cons, List.count_cons_of_ne ends, lineStart_cons ends]
        cases count : (rest.take offset).count '\n' with
        | zero => rfl
        | succ lines =>
            rw [count, List.getElem?_cons_succ] at behind
            rw [List.getElem?_cons_succ, behind, if_neg (Nat.succ_ne_zero lines)]
            congr 1
            omega

theorem place_ofText (text : Text) (offset : Nat) :
    (ofText text).place offset =
      ⟨1 + (text.take offset).count '\n', 1 + ((offset : Int) - lineStart text offset)⟩ := by
  have lines : (ofText text).starts.countP (fun (start : Nat) => decide ((start : Int) ≤ offset)) =
      1 + (text.take offset).count '\n' := by
    have behind := countP_startsAfter text 0 offset
    rw [Nat.zero_add] at behind
    simp only [ofText, Int.ofNat_le, List.countP_cons, behind, Nat.zero_le, decide_true, if_true]
    omega
  have begins := getElem?_starts text 0 offset
  rw [Nat.zero_add] at begins
  simp only [place, lines]
  rw [if_neg (by omega), Nat.add_sub_cancel_left, ofText, List.getD_eq_getElem?_getD, begins,
    Option.getD_some, Int.add_comm]

/-! ## Halving -/

theorem lt_begun_iff {starts : List Nat} (ascending : starts.Pairwise (· < ·)) (offset : Int) :
    ∀ index (inside : index < starts.length),
      index < begun starts offset ↔ (starts[index] : Int) ≤ offset := by
  induction starts with
  | nil => exact fun index inside => absurd inside (Nat.not_lt_zero index)
  | cons first rest induction =>
      obtain ⟨firstLess, restAscending⟩ := List.pairwise_cons.mp ascending
      intro index inside
      by_cases early : (first : Int) ≤ offset
      · have more : begun (first :: rest) offset = begun rest offset + 1 :=
          List.countP_cons_of_pos (decide_eq_true early)
        cases index with
        | zero => exact iff_of_true (by omega) early
        | succ index =>
            rw [more, Nat.add_lt_add_iff_right]
            exact induction restAscending index (Nat.lt_of_succ_lt_succ inside)
      · have late : ∀ start ∈ first :: rest, ¬ (start : Int) ≤ offset := by
          intro start member
          rcases List.mem_cons.mp member with rfl | behind
          · exact early
          · have less := firstLess start behind
            omega
        have none_begun : begun (first :: rest) offset = 0 := by
          rw [begun, List.countP_eq_zero]
          intro start member
          rw [decide_eq_true_eq]
          exact late start member
        rw [none_begun]
        exact iff_of_false (Nat.not_lt_zero index) (late _ (List.getElem_mem inside))

theorem search_eq_begun {starts : List Nat} (ascending : starts.Pairwise (· < ·)) (offset : Int)
    (low high : Nat) (inside : high ≤ starts.length) (le : low ≤ begun starts offset)
    (ge : begun starts offset ≤ high) : search starts offset low high = begun starts offset := by
  fun_induction search starts offset low high with
  | case1 low high apart middle early induction =>
      have within : middle < starts.length := by omega
      rw [List.getD_eq_getElem?_getD, List.getElem?_eq_getElem within, Option.getD_some] at early
      -- The invariant is that the number of starts lies between the bounds.
      have before := mt (lt_begun_iff ascending offset middle within).mp (Int.not_le.mpr early)
      exact induction (by omega) le (Nat.le_of_not_lt before)
  | case2 low high apart middle late induction =>
      have within : middle < starts.length := by omega
      rw [List.getD_eq_getElem?_getD, List.getElem?_eq_getElem within, Option.getD_some] at late
      have behind := (lt_begun_iff ascending offset middle within).mpr (Int.not_lt.mp late)
      exact induction inside behind ge
  | case3 low high together => omega

theorem line_place (text : Text) (offset : Int) :
    ((ofText text).place offset).line =
      search (ofText text).starts offset 0 (ofText text).starts.length := by
  have ascending : (ofText text).starts.Pairwise (· < ·) := pairwise_startsAfter text 0
  have within : begun (ofText text).starts offset ≤ (ofText text).starts.length :=
    List.countP_le_length
  rw [search_eq_begun ascending offset 0 _ (Nat.le_refl _) (Nat.zero_le _) within]
  rfl

/-! ## Places of offsets -/

theorem place_lt_place_succ (text : Text) (offset : Nat) :
    toLex (((ofText text).place offset).line, ((ofText text).place offset).column) <
      toLex (((ofText text).place (offset + 1 : Nat)).line,
        ((ofText text).place (offset + 1 : Nat)).column) := by
  simp only [place_ofText, Prod.Lex.toLex_lt_toLex, count_take_succ, lineStart]
  by_cases ends : text[offset]? = some '\n'
  · rw [if_pos ends]
    exact .inl (by omega)
  · rw [if_neg ends, if_neg ends]
    exact .inr ⟨rfl, by omega⟩

theorem offsetOf_place (text : Text) (offset : Nat) :
    offsetOf text (((ofText text).place offset).line - 1)
      (((ofText text).place offset).column - 1).toNat = offset := by
  have begins := eq_offsetOf_of_getElem? (getElem?_starts text 0 offset)
  have le := lineStart_le text offset
  have behind : (1 + ((offset : Int) - lineStart text offset) - 1).toNat =
      offset - lineStart text offset := by omega
  simp only [place_ofText, Nat.add_sub_cancel_left, behind]
  rw [offsetOf_add]
  omega

/-- The place of an offset is one more than the number of line ends before it, and than the
distance from behind the last of them. Halving finds its line, later offsets have later places,
and the offset is what its line and column, counted from zero, stand for. -/
theorem places_of_offsets (text : Text) :
    (∀ offset : Nat, (ofText text).place offset =
      ⟨1 + (text.take offset).count '\n', 1 + ((offset : Int) - lineStart text offset)⟩) ∧
    (∀ offset : Nat, ((ofText text).place offset).line =
      search (ofText text).starts offset 0 (ofText text).starts.length) ∧
    (StrictMono fun offset : Nat =>
      toLex (((ofText text).place offset).line, ((ofText text).place offset).column)) ∧
    (Function.Injective fun offset : Nat => (ofText text).place offset) ∧
    ∀ offset : Nat, offsetOf text (((ofText text).place offset).line - 1)
      (((ofText text).place offset).column - 1).toNat = offset := by
  have ascending : StrictMono fun offset : Nat =>
      toLex (((ofText text).place offset).line, ((ofText text).place offset).column) :=
    strictMono_nat_of_lt_succ (place_lt_place_succ text)
  refine ⟨place_ofText text, fun offset => line_place text offset, ascending, ?_,
    offsetOf_place text⟩
  intro offset other same
  apply ascending.injective
  simp only at same ⊢
  rw [same]

/-- Two line ends in a row: the offset behind them begins the third line, and an offset past the
end of the text goes on in the last one. -/
example : ((ofText ['a', '\n', '\n', 'b']).place 3, (ofText ['a', '\n', '\n', 'b']).place 9) =
    (⟨3, 1⟩, ⟨3, 7⟩) := by decide

end QubitLang.LineIndex
