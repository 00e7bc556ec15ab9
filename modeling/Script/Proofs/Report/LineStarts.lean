import Mathlib.Data.List.TakeWhile
import Script.Report
import Script.Proofs.Token.Tiling

/-!
# Where lines start

Positions and reports count lines and columns in two ways. A position goes along the characters of a
source, and starts a new line behind every line feed. A report splits the source into lines, at
everything that ends a line in any system, and then looks for the line that holds an offset.

Either way, what is counted are the starts of lines (`lineStarts`): how many there are gives the
line, and the last one of them gives the column (`line_advanceAll`, `column_advanceAll`,
`holds_lineAt`). What positions count is among what reports count, so that the two agree only if
they count the same. In this way the question when reports agree with positions comes down to single
characters (`location_eq_iff`).
-/

namespace Script.Report

/-- The offsets behind those characters of a text that end a line. The text starts at `offset`, and
`after` stands behind it; whether a character ends a line may depend on all that follows. -/
def lineStarts (ends : Char → List Char → Bool) (after : List Char) (offset : Nat) :
    List Char → List Nat
  | [] => []
  | c :: cs =>
    if ends c (cs ++ after) then (offset + 1) :: lineStarts ends after (offset + 1) cs
    else lineStarts ends after (offset + 1) cs

/-- What ends a line for positions. -/
def feeds (c : Char) (_ : List Char) : Bool := c = '\n'

/-- What ends a line for reports, if there is another line behind it: the first half of a line end
of two characters does not. -/
def breaks (c : Char) (rest : List Char) : Bool :=
  isLineEnd c && !rest.isEmpty && !(c = '\r' && rest.head? = some '\n')

section

variable {ends ends' : Char → List Char → Bool} {after : List Char} {offset : Nat} {cs : List Char}

/-- The lines of a joined text start where those of its parts do, each read with what follows it. -/
theorem lineStarts_append (ends : Char → List Char → Bool) (after : List Char) (offset : Nat)
    (cs ds : List Char) :
    lineStarts ends after offset (cs ++ ds) =
      lineStarts ends (ds ++ after) offset cs ++ lineStarts ends after (offset + cs.length) ds := by
  induction cs generalizing offset with
  | nil => rfl
  | cons c cs ih =>
    have hoffset : offset + 1 + cs.length = offset + (c :: cs).length := by
      rw [List.length_cons]
      omega
    rw [List.cons_append, lineStarts, lineStarts, ih, hoffset, List.append_assoc]
    split <;> rfl

/-- A line starts behind each character that ends one. -/
theorem mem_lineStarts_iff {start : Nat} :
    start ∈ lineStarts ends after offset cs ↔
      ∃ front c back, cs = front ++ c :: back ∧ start = offset + front.length + 1 ∧
        ends c (back ++ after) := by
  induction cs generalizing offset with
  | nil => simp [lineStarts]
  | cons c cs ih =>
    have hstep : start ∈ lineStarts ends after offset (c :: cs) ↔
        (start = offset + 1 ∧ ends c (cs ++ after)) ∨
          start ∈ lineStarts ends after (offset + 1) cs := by
      rw [lineStarts]
      split <;> simp_all
    rw [hstep, ih]
    constructor
    · rintro (⟨hstart, hc⟩ | ⟨front, d, back, rfl, hstart, hd⟩)
      · exact ⟨[], c, cs, rfl, hstart, hc⟩
      · exact ⟨c :: front, d, back, rfl, by rw [List.length_cons]; omega, hd⟩
    · rintro ⟨front, d, back, hcs, hstart, hd⟩
      cases front with
      | nil =>
        obtain ⟨rfl, rfl⟩ := List.cons.inj hcs
        exact .inl ⟨hstart, hd⟩
      | cons b front =>
        obtain ⟨rfl, rfl⟩ := List.cons.inj hcs
        exact .inr ⟨front, d, back, rfl, by rw [List.length_cons] at hstart; omega, hd⟩

/-- A line starts within the text, and never at its very start. -/
theorem bounds_of_mem_lineStarts {start : Nat} (h : start ∈ lineStarts ends after offset cs) :
    offset < start ∧ start ≤ offset + cs.length := by
  obtain ⟨front, c, back, rfl, rfl, -⟩ := mem_lineStarts_iff.mp h
  rw [List.length_append, List.length_cons]
  omega

/-- What ends fewer lines starts fewer. -/
theorem lineStarts_sublist
    (h : ∀ front c back, cs = front ++ c :: back → ends c (back ++ after) →
      ends' c (back ++ after)) :
    (lineStarts ends after offset cs).Sublist (lineStarts ends' after offset cs) := by
  induction cs generalizing offset with
  | nil => exact .slnil
  | cons c cs ih =>
    have hrest :=
      @ih (offset + 1) fun front d back hcs => h (c :: front) d back (by rw [hcs, List.cons_append])
    rw [lineStarts, lineStarts]
    by_cases hc : ends c (cs ++ after)
    · rw [if_pos hc, if_pos (h [] c cs rfl hc)]
      exact hrest.cons_cons _
    · rw [if_neg hc]
      split
      · exact hrest.cons _
      · exact hrest

/-- The same lines are started by the same characters. -/
theorem ends_of_lineStarts_eq
    (h : lineStarts ends' after offset cs = lineStarts ends after offset cs)
    {front back : List Char} {c : Char} (hcs : cs = front ++ c :: back)
    (hc : ends' c (back ++ after)) :
    ends c (back ++ after) := by
  have hmem : offset + front.length + 1 ∈ lineStarts ends after offset cs :=
    h ▸ mem_lineStarts_iff.mpr ⟨front, c, back, hcs, rfl, hc⟩
  obtain ⟨front', c', back', hcs', hstart, hc'⟩ := mem_lineStarts_iff.mp hmem
  obtain ⟨-, htail⟩ := List.append_inj (hcs.symm.trans hcs') (by omega)
  obtain ⟨rfl, rfl⟩ := List.cons.inj htail
  exact hc'

end

/-! ## Positions -/

/-- The line of a position is the number of line feeds before it. -/
theorem line_advanceAll (p : Position) (after : List Char) (offset : Nat) (cs : List Char) :
    (p.advanceAll cs).line = p.line + (lineStarts feeds after offset cs).length := by
  induction cs generalizing p offset with
  | nil => rfl
  | cons c cs ih =>
    rw [Position.advanceAll_cons, ih _ (offset + 1), lineStarts, Position.advance]
    by_cases hc : c = '\n'
    · simp only [feeds, hc, if_true, decide_true, List.length_cons]
      omega
    · simp only [feeds, hc, if_false, decide_false, Bool.false_eq_true]

/-- The column is what there is behind the start of the line. -/
theorem column_advanceAll {p : Position} {start offset : Nat} (hp : start + p.column = offset)
    (after cs : List Char) :
    (lineStarts feeds after offset cs).getLastD start + (p.advanceAll cs).column
      = offset + cs.length := by
  induction cs generalizing p start offset with
  | nil => exact hp
  | cons c cs ih =>
    rw [Position.advanceAll_cons, lineStarts, Position.advance, List.length_cons]
    by_cases hc : c = '\n'
    · have hrest := @ih ⟨p.index + c.utf8Size, p.line + 1, 0⟩ (offset + 1) (offset + 1) rfl
      simp only [feeds, hc, if_true, decide_true, List.getLastD_cons] at hrest ⊢
      omega
    · have hrest :=
        @ih ⟨p.index + c.utf8Size, p.line, p.column + 1⟩ start (offset + 1) (by simp only; omega)
      simp only [feeds, hc, if_false, decide_false, Bool.false_eq_true]
      omega

/-! ## Reports -/

/-- The line is the one that holds the target, if the first of the lines starts at `start` and the
others at these offsets. -/
structure Line.Holds (line : Line) (target index start : Nat) (starts : List Nat) : Prop where
  index_eq : line.index = index + (starts.takeWhile (· ≤ target)).length
  offset_eq : line.offset = (starts.takeWhile (· ≤ target)).getLastD start

/-- Lines up to the target are passed over. -/
theorem Line.Holds.cons (line : Line) {target next : Nat} {starts : List Nat} {later : Line}
    (h : later.Holds target (line.index + 1) next starts) :
    (if next ≤ target then later else line).Holds target line.index line.offset
      (next :: starts) := by
  by_cases hle : next ≤ target
  · have htake : (next :: starts).takeWhile (· ≤ target) = next :: starts.takeWhile (· ≤ target) :=
      List.takeWhile_cons_of_pos (by simp [hle])
    rw [if_pos hle]
    constructor
    · rw [htake, h.index_eq, List.length_cons]
      omega
    · rw [htake, h.offset_eq, List.getLastD_cons]
  · have htake : (next :: starts).takeWhile (· ≤ target) = [] :=
      List.takeWhile_cons_of_neg (by simp [hle])
    rw [if_neg hle]
    constructor
    · rw [htake, List.length_nil, Nat.add_zero]
    · rw [htake, List.getLastD_nil]

/-- A text that is not empty has a line. -/
theorem splitLines_ne_nil {cs : List Char} (h : cs ≠ []) : splitLines [] cs ≠ [] := by
  intro hnil
  have hflatten := flatten_splitLines [] cs
  rw [hnil] at hflatten
  exact h hflatten.symm

/-- What ends a line starts another one, unless the source ends there. -/
theorem lineStarts_of_breaks {c : Char} {cs : List Char} (h : breaks c cs = !cs.isEmpty)
    (offset : Nat) :
    lineStarts breaks [] offset (c :: cs) =
      if cs = [] then [] else (offset + 1) :: lineStarts breaks [] (offset + 1) cs := by
  rw [lineStarts, List.append_nil, h]
  cases cs <;> rfl

/-- The line that holds an offset is found by counting the starts of lines up to the offset. -/
theorem holds_seek {current cs first : List Char} {rest : List (List Char)}
    (h : splitLines current cs = first :: rest) (target index start : Nat) :
    (seek target ⟨index, start, first⟩ rest).Holds target index start
      (lineStarts breaks [] (start + current.length) cs) := by
  -- How the search goes on behind a line, whichever way that has ended.
  have hnext : ∀ {cs line : List Char} {index start stop : Nat}, start + line.length = stop →
      (∀ {first rest}, splitLines [] cs = first :: rest → ∀ index start,
        (seek target ⟨index, start, first⟩ rest).Holds target index start
          (lineStarts breaks [] (start + 0) cs)) →
      (seek target ⟨index, start, line⟩ (splitLines [] cs)).Holds target index start
        (if cs = [] then [] else stop :: lineStarts breaks [] stop cs) := by
    rintro cs line index start stop rfl ih
    by_cases hcs : cs = []
    · subst hcs
      exact ⟨rfl, rfl⟩
    · obtain ⟨first, rest, hsplit⟩ := List.exists_cons_of_ne_nil (splitLines_ne_nil hcs)
      rw [if_neg hcs, hsplit]
      exact .cons ⟨index, start, line⟩ (ih hsplit (index + 1) (start + line.length))
  fun_induction splitLines current cs generalizing first rest index start with
  | case1 => cases h
  | case2 =>
    cases h
    exact ⟨rfl, rfl⟩
  | case3 current cs ih =>
    cases h
    -- cs) = false := rfl :: A carriage return with a line feed behind it ends no line, the line
    -- feed does.
    have hfirst : breaks '\r' ('\n' :: cs) = false := rfl
    have hsecond : breaks '\n' cs = !cs.isEmpty := by simp [breaks, isLineEnd]
    rw [lineStarts, List.append_nil, hfirst, if_neg Bool.false_ne_true,
      lineStarts_of_breaks hsecond]
    refine hnext ?_ ih
    rw [List.length_reverse, List.length_cons, List.length_cons]
    omega
  | case4 current c cs hreturn hend ih =>
    cases h
    have hbreaks : breaks c cs = !cs.isEmpty := by
      have hhalf : ¬ (c = '\r' ∧ cs.head? = some '\n') := by
        rintro ⟨hc, hhead⟩
        obtain ⟨tail, rfl⟩ := List.head?_eq_some_iff.mp hhead
        exact hreturn tail hc rfl
      rw [breaks, hend, ← Bool.decide_and, decide_eq_false hhalf, Bool.true_and, Bool.not_false,
        Bool.and_true]
    rw [lineStarts_of_breaks hbreaks]
    refine hnext ?_ ih
    rw [List.length_reverse, List.length_cons]
    omega
  | case5 current c cs hreturn hend ih =>
    have hbreaks : breaks c cs = false := by simp [breaks, hend]
    rw [lineStarts, List.append_nil, hbreaks, if_neg Bool.false_ne_true]
    have hrest := ih h index start
    rwa [List.length_cons, ← Nat.add_assoc] at hrest

/-- The line that a report shows holds the offset. -/
theorem holds_lineAt (source : List Char) (offset : Nat) :
    (lineAt source offset).Holds offset 0 0 (lineStarts breaks [] 0 source) := by
  unfold lineAt
  split
  next hnil =>
    obtain rfl : source = [] := by
      by_contra hne
      exact splitLines_ne_nil hne hnil
    exact ⟨rfl, rfl⟩
  next first rest hsplit => exact holds_seek hsplit offset 0 0

/-! ## Agreement -/

/-- What stands before and behind a place, if reports and positions count the same up to there. -/
structure CountedAlike (before after : List Char) : Prop where
  /-- Reports take bytes for characters. -/
  bytes : ∀ c ∈ before, c.utf8Size = 1
  /-- They end lines not only at line feeds. -/
  lines : ∀ front c back, before = front ++ c :: back → breaks c (back ++ after) → c = '\n'
  /-- They do not start a line at the end of a source. -/
  last : after = [] → before.getLast? ≠ some '\n'

/-- A text has at least one byte for each character. -/
theorem length_le_utf8ByteSize (cs : List Char) : cs.length ≤ (String.ofList cs).utf8ByteSize := by
  induction cs with
  | nil => exact Nat.zero_le _
  | cons c cs ih =>
    have hpos := c.utf8Size_pos
    rw [String.utf8ByteSize_ofList] at ih ⊢
    rw [String.utf8Len_cons, List.length_cons]
    omega

/-- A text has exactly one byte for each character if all of them are ASCII. -/
theorem utf8ByteSize_eq_length_iff {cs : List Char} :
    (String.ofList cs).utf8ByteSize = cs.length ↔ ∀ c ∈ cs, c.utf8Size = 1 := by
  induction cs with
  | nil => simp
  | cons c cs ih =>
    have hpos := c.utf8Size_pos
    have hle := length_le_utf8ByteSize cs
    rw [List.forall_mem_cons, ← ih]
    rw [String.utf8ByteSize_ofList] at hle ⊢
    rw [String.utf8ByteSize_ofList, String.utf8Len_cons, List.length_cons]
    omega

/-- Up to a place that is not behind the last line feed, positions start lines only where reports
do. -/
theorem feeds_sublist_breaks {before after : List Char}
    (hlast : after = [] → before.getLast? ≠ some '\n') :
    (lineStarts feeds after 0 before).Sublist (lineStarts breaks after 0 before) := by
  refine lineStarts_sublist fun front c back hbefore hc => ?_
  obtain rfl : c = '\n' := by simpa [feeds] using hc
  have hne : back ++ after ≠ [] := by
    intro hnil
    obtain ⟨rfl, rfl⟩ := List.append_eq_nil_iff.mp hnil
    exact hlast rfl (by rw [hbefore]; simp)
  simp [breaks, isLineEnd, hne]

/-- No line of a report starts at the end of its source. -/
theorem lt_length_of_mem_lineStarts {source : List Char} {start : Nat}
    (h : start ∈ lineStarts breaks [] 0 source) : start < source.length := by
  obtain ⟨front, c, back, rfl, rfl, hc⟩ := mem_lineStarts_iff.mp h
  have hback : back ≠ [] := by
    rintro rfl
    simp [breaks] at hc
  have hpos := List.length_pos_iff.mpr hback
  rw [List.length_append, List.length_cons]
  omega

/-- The starts of lines up to an offset behind `before`. Those in `before` are among them. -/
theorem takeWhile_lineStarts (before after : List Char) {offset : Nat}
    (h : before.length ≤ offset) :
    (lineStarts breaks [] 0 (before ++ after)).takeWhile (· ≤ offset) =
      lineStarts breaks after 0 before ++
        (lineStarts breaks [] before.length after).takeWhile (· ≤ offset) := by
  rw [lineStarts_append, List.append_nil, Nat.zero_add]
  refine List.takeWhile_append_of_pos fun start hstart => decide_eq_true ?_
  have hbounds := bounds_of_mem_lineStarts hstart
  omega

/-- Behind the last line feed of a source, a report stays on the line that ends there. -/
theorem column_ne_of_last {before : List Char} (hlast : before.getLast? = some '\n') {offset : Nat}
    (hoffset : offset = before.length) :
    offset - (lineAt before offset).offset ≠ (Position.start.advanceAll before).column := by
  obtain ⟨front, rfl⟩ : ∃ front, before = front ++ ['\n'] := List.getLast?_eq_some_iff.mp hlast
  have hcolumn : (Position.start.advanceAll (front ++ ['\n'])).column = 0 := by
    rw [Position.advanceAll_append]
    rfl
  have hlt : (lineAt (front ++ ['\n']) offset).offset < offset := by
    rw [(holds_lineAt (front ++ ['\n']) offset).offset_eq]
    generalize hstarts : (lineStarts breaks [] 0 (front ++ ['\n'])).takeWhile (· ≤ offset) = starts
    rcases List.eq_nil_or_concat starts with rfl | ⟨others, start, rfl⟩
    · rw [hoffset]
      simp
    · have hmem : start ∈ lineStarts breaks [] 0 (front ++ ['\n']) := by
        have htaken :
            start ∈ (lineStarts breaks [] 0 (front ++ ['\n'])).takeWhile (· ≤ offset) := by
          rw [hstarts]
          simp
        exact (List.takeWhile_sublist _).subset htaken
      rw [List.concat_eq_append, List.getLastD_concat, hoffset]
      exact lt_length_of_mem_lineStarts hmem
  omega

/-- A report that takes the byte offset of a place for an offset in characters, finds the line and
the column of the place just in case both count the same up to there. -/
theorem location_eq_iff {before after : List Char} {place : Position} (culprit : Culprit)
    (hplace : place = Position.start.advanceAll before) (hstart : culprit.start = place.index)
    (hwithin : culprit.start ≤ (before ++ after).length) :
    location (before ++ after) culprit = (place.line, place.column + 1) ↔
      CountedAlike before after := by
  have hbytes : culprit.start = (String.ofList before).utf8ByteSize := by
    rw [hstart, hplace, index_advanceAll_start]
  have hlength : before.length ≤ culprit.start := hbytes ▸ length_le_utf8ByteSize before
  have hlocation : location (before ++ after) culprit = (place.line, place.column + 1) ↔
      (lineAt (before ++ after) culprit.start).index + 1 = place.line ∧
        culprit.start - (lineAt (before ++ after) culprit.start).offset = place.column := by
    rw [location, Prod.mk.injEq, Nat.add_right_cancel_iff]
  rw [hlocation]
  by_cases hlast : after = [] → before.getLast? ≠ some '\n'
  · have hline : place.line = 1 + (lineStarts feeds after 0 before).length :=
      hplace ▸ line_advanceAll .start after 0 before
    have hcolumn : (lineStarts feeds after 0 before).getLastD 0 + place.column
        = 0 + before.length :=
      hplace ▸ @column_advanceAll .start 0 0 rfl after before
    -- Line and column as positions have them, and as the report finds them.
    have hheld := holds_lineAt (before ++ after) culprit.start
    have hsub := feeds_sublist_breaks hlast
    rw [hheld.index_eq, hheld.offset_eq, takeWhile_lineStarts before after hlength]
    constructor
    · rintro ⟨hindex, hoffset⟩
      -- There are no more starts of lines than those that positions count, so they are the same.
      have hle := hsub.length_le
      rw [hline, List.length_append] at hindex
      have hnone : (lineStarts breaks [] before.length after).takeWhile (· ≤ culprit.start)
          = [] := by
        apply List.eq_nil_of_length_eq_zero
        omega
      have hsame : lineStarts feeds after 0 before = lineStarts breaks after 0 before := by
        apply hsub.eq_of_length
        omega
      rw [hnone, List.append_nil, ← hsame] at hoffset
      refine ⟨utf8ByteSize_eq_length_iff.mp (by omega), fun front c back hbefore hc => ?_, hlast⟩
      simpa [feeds] using ends_of_lineStarts_eq hsame.symm hbefore hc
    · intro hcounted
      have hsame : lineStarts breaks after 0 before = lineStarts feeds after 0 before := by
        refine (lineStarts_sublist fun front c back hbefore hc => ?_).antisymm hsub
        simpa [feeds] using hcounted.lines front c back hbefore hc
      have hequal : culprit.start = before.length := by
        rw [hbytes, utf8ByteSize_eq_length_iff]
        exact hcounted.bytes
      have hnone : (lineStarts breaks [] before.length after).takeWhile (· ≤ culprit.start)
          = [] := by
        rw [List.takeWhile_eq_nil_iff]
        intro hne
        have hbounds := bounds_of_mem_lineStarts (List.get_mem _ ⟨0, hne⟩)
        rw [decide_eq_true_eq]
        omega
      rw [hnone, List.append_nil, hsame, hline]
      constructor <;> omega
  -- Behind a last line feed positions start a line that reports do not have.
  · obtain ⟨rfl, hfeed⟩ : after = [] ∧ before.getLast? = some '\n' := by simpa using hlast
    rw [List.append_nil] at hwithin ⊢
    refine iff_of_false (fun h => ?_) fun h => h.last rfl hfeed
    rw [hplace] at h
    exact column_ne_of_last hfeed (Nat.le_antisymm hwithin hlength) h.2

end Script.Report
