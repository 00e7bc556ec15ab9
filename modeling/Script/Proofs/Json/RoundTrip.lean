import Script.Proofs.Json.Numerals

/-!
# JSON is read as it is written

A value whose numerals are well-formed and whose texts are texts is read back from what is written
for it, in any layout that only adds blanks (`read?_write`).

Everything is written in front of what follows it, and everything is read off the front of a text.
So the statement for values says that reading leaves just the rest, for every rest that ends the
value (`ReadsBack`). Texts and numerals have it on their own. An array has it if its items do, by
induction on the items, and an object has it likewise.
-/

namespace Script.Json

/-! ## Texts -/

/-- The piece stands for the character, and does not pair up with what stands behind it. -/
def Piece.Means (piece : Piece) (c : Char) : Prop :=
  ∀ before pieces, joinPieces before (piece :: pieces) = joinPieces (c :: before) pieces

/-- A character stands for itself. -/
theorem Piece.means_char (c : Char) : (Piece.char c).Means c := by
  intro before pieces
  rw [joinPieces]

/-- Units below the surrogates stand alone. -/
theorem Piece.means_unit {n : Nat} (hn : n < 0xD800) : (Piece.unit n).Means (Char.ofNat n) := by
  have hhigh : isHighHalf n = false := by simp [isHighHalf, hn]
  have hlow : isLowHalf n = false := by
    have hlt : ¬ 0xDC00 ≤ n := by omega
    simp [isLowHalf, hlt]
  intro before pieces
  cases pieces with
  | nil => simp [joinPieces, hhigh, hlow]
  | cons piece pieces => cases piece <;> simp [joinPieces, hhigh, hlow]

/-- Four hexadecimal digits are read as the control character they were written for. -/
theorem hexNumber?_of_lt {n : Nat} (hn : n < 32) :
    Text.hexNumber? ['0', '0', hexDigit (n / 16), hexDigit (n % 16)] = some n := by
  decide +revert

/-- What is written for a character is read as one piece that stands for it. -/
theorem exists_piece_of_escape (c : Char) :
    ∃ piece : Piece, piece.Means c ∧
      ∀ before rest, readPieces before (escape c ++ rest) = readPieces (piece :: before) rest := by
  -- Characters with an escape of their own, other control characters, and those that are written as
  -- they are.
  by_cases hnamed : c ∈ ['"', '\\', '\n', '\r', '\t', '\x08', '\x0c']
  · refine ⟨.char c, Piece.means_char c, fun before rest => ?_⟩
    simp only [List.mem_cons, List.not_mem_nil, or_false] at hnamed
    rcases hnamed with rfl | rfl | rfl | rfl | rfl | rfl | rfl <;> rfl
  · simp only [List.mem_cons, List.not_mem_nil, or_false, not_or] at hnamed
    obtain ⟨hquote, hslash, hnewline, hreturn, htab, hback, hfeed⟩ := hnamed
    by_cases hcontrol : c.toNat < 32
    · refine ⟨.unit c.toNat, ?_, fun before rest => ?_⟩
      · have hmeans : (Piece.unit c.toNat).Means (Char.ofNat c.toNat) := Piece.means_unit (by omega)
        rwa [Char.ofNat_toNat] at hmeans
      · simp only [escape, if_neg hquote, if_neg hslash, if_neg hnewline, if_neg hreturn,
          if_neg htab, if_neg hback, if_neg hfeed, if_pos hcontrol, List.cons_append,
          List.nil_append]
        rw [readPieces, hexNumber?_of_lt hcontrol]
    · refine ⟨.char c, Piece.means_char c, fun before rest => ?_⟩
      simp only [escape, if_neg hquote, if_neg hslash, if_neg hnewline, if_neg hreturn, if_neg htab,
        if_neg hback, if_neg hfeed, if_neg hcontrol, List.cons_append, List.nil_append]
      rw [readPieces]
      · rw [if_neg (not_or.mpr ⟨hcontrol, hslash⟩)]
      all_goals simp_all

/-- What is written for characters is read as pieces, and these make up the characters. -/
theorem exists_pieces_of_writeChars (cs : List Char) :
    ∃ pieces, (∀ before, joinPieces before pieces = some (before.reverse ++ cs)) ∧
      ∀ before rest, readPieces before (writeChars rest cs)
        = some (before.reverse ++ pieces, rest) := by
  induction cs with
  | nil =>
    refine ⟨[], fun before => ?_, fun before rest => ?_⟩
    · simp [joinPieces]
    · simp [writeChars, readPieces]
  | cons c cs ih =>
    obtain ⟨piece, hmeans, hread⟩ := exists_piece_of_escape c
    obtain ⟨pieces, hjoin, hreads⟩ := ih
    refine ⟨piece :: pieces, fun before => ?_, fun before rest => ?_⟩
    · rw [hmeans, hjoin, List.reverse_cons, List.append_assoc, List.singleton_append]
    · rw [writeChars, hread, hreads, List.reverse_cons, List.append_assoc, List.singleton_append]

/-- A text is read as it is written. -/
theorem readText_writeChars (s : String) (rest : List Char) :
    readText (writeChars rest s.toList) = some (some s, rest) := by
  obtain ⟨pieces, hjoin, hread⟩ := exists_pieces_of_writeChars s.toList
  rw [readText, hread []]
  simp [hjoin]

/-- A closing quote is written at least. -/
theorem length_lt_writeChars (rest cs : List Char) : rest.length < (writeChars rest cs).length := by
  induction cs with
  | nil => exact Nat.lt_succ_self _
  | cons c cs ih =>
    rw [writeChars, List.length_append]
    omega

/-! ## Layouts -/

/-- A layout that adds nothing but blanks. -/
structure Layout.OnlyBlanks (layout : Layout) : Prop where
  lineBreak : ∀ level, ∀ c ∈ layout.lineBreak level, isBlank c
  colon : ∃ gap, layout.colon = ':' :: gap ∧ ∀ c ∈ gap, isBlank c

/-- An indented layout adds nothing but blanks. -/
theorem Layout.onlyBlanks_indented : Layout.indented.OnlyBlanks where
  lineBreak := by
    intro level c hc
    rcases List.mem_cons.mp hc with rfl | hc
    · rfl
    · rw [List.eq_of_mem_replicate hc]
      rfl
  colon := ⟨[' '], rfl, List.forall_mem_singleton.mpr rfl⟩

/-- Blanks are skipped up to the first character that is none. -/
theorem skipBlanks_append {gap : List Char} (hgap : ∀ c ∈ gap, isBlank c) {c : Char}
    (hc : isBlank c = false) (cs : List Char) : skipBlanks (gap ++ c :: cs) = c :: cs := by
  rw [skipBlanks, List.dropWhile_append_of_pos hgap, List.dropWhile_cons_of_neg (by simp [hc])]

/-- Blanks and then a closing bracket end a value. -/
theorem ends_append {gap : List Char} (hgap : ∀ c ∈ gap, isBlank c) {c : Char} (hc : endsValue c)
    (cs : List Char) : Ends (gap ++ c :: cs) := by
  intro d hd
  cases gap with
  | nil => exact Option.some.inj hd ▸ hc
  | cons b gap =>
    obtain rfl : b = d := Option.some.inj hd
    simp [endsValue, hgap b List.mem_cons_self]

/-! ## Values -/

/-- A value that can be written: its numerals are well-formed, and its texts and names are texts. -/
inductive Proper : Json → Prop
  | null : Proper .null
  | bool (b : Bool) : Proper (.bool b)
  | number {n : Numeral} (h : n.WellFormed) : Proper (.number n)
  | text (s : String) : Proper (.ofString s)
  | array {items : List Json} (h : ∀ item ∈ items, Proper item) : Proper (.array items)
  | object {members : List (Option String × Json)} (hnames : ∀ member ∈ members, member.1.isSome)
      (h : ∀ member ∈ members, Proper member.2) : Proper (.object members)

/-- The value is read back from what is written for it, and the rest is left. Two steps of fuel for
every character are enough. -/
structure ReadsBack (layout : Layout) (j : Json) : Prop where
  starts : ∀ level rest, ∃ c cs, writeOnto layout level rest j = c :: cs ∧
    isBlank c = false ∧ c ≠ ']' ∧ rest.length ≤ cs.length
  reads : ∀ {level : Nat} {rest : List Char} {fuel : Nat}, Ends rest →
    2 * (writeOnto layout level rest j).length ≤ fuel + 2 * rest.length →
    readValue fuel (writeOnto layout level rest j) = some (j, rest)

variable {layout : Layout}

/-- Every value is written as one character at least. -/
theorem ReadsBack.length_lt {j : Json} (h : ReadsBack layout j) (level : Nat) (rest : List Char) :
    rest.length < (writeOnto layout level rest j).length := by
  obtain ⟨c, cs, hwrite, -, -, hle⟩ := h.starts level rest
  rw [hwrite, List.length_cons]
  omega

/-- No value starts with a blank. -/
theorem ReadsBack.skipBlanks_eq {j : Json} (h : ReadsBack layout j) {gap : List Char}
    (hgap : ∀ c ∈ gap, isBlank c) (level : Nat) (rest : List Char) :
    skipBlanks (gap ++ writeOnto layout level rest j) = writeOnto layout level rest j := by
  obtain ⟨c, cs, hwrite, hc, -⟩ := h.starts level rest
  rw [hwrite, skipBlanks_append hgap hc]

/-! ## Arrays -/

/-- Items are written in front of what follows them. -/
theorem length_le_writeItems {items : List Json} (hitems : ∀ item ∈ items, ReadsBack layout item)
    (level : Nat) (rest : List Char) :
    rest.length ≤ (writeItems layout level rest items).length := by
  induction items with
  | nil => exact Nat.le_refl _
  | cons item items ih =>
    obtain ⟨hitem, hitems⟩ := List.forall_mem_cons.mp hitems
    have hlt := hitem.length_lt level (writeItems layout level rest items)
    have hle := ih hitems
    simp only [writeItems, List.length_cons, List.length_append]
    omega

/-- What follows an item ends it. -/
theorem ends_writeItems (items : List Json) (level : Nat) {rest : List Char} (hrest : Ends rest) :
    Ends (writeItems layout level rest items) := by
  cases items with
  | nil => exact hrest
  | cons item items =>
    intro c hc
    obtain rfl : ',' = c := Option.some.inj hc
    rfl

/-- An item with a closing bracket behind it is the last one. -/
theorem readItems_of_last {fuel : Nat} {before : List Json} {cs behind rest : List Char}
    {item : Json}
    (hread : readValue fuel cs = some (item, behind)) (hclose : skipBlanks behind = ']' :: rest) :
    readItems (fuel + 1) before cs = some (.array (before.reverse ++ [item]), rest) := by
  rw [readItems, hread]
  simp only [hclose, List.reverse_cons]

/-- An item with a comma behind it is followed by another one. -/
theorem readItems_of_comma {fuel : Nat} {before : List Json} {cs behind rest : List Char}
    {item : Json}
    (hread : readValue fuel cs = some (item, behind)) (hcomma : skipBlanks behind = ',' :: rest) :
    readItems (fuel + 1) before cs = readItems fuel (item :: before) (skipBlanks rest) := by
  rw [readItems, hread]
  simp only [hcomma]

/-- Items are read one by one up to the closing bracket. -/
theorem readItems_writeItems (hlayout : layout.OnlyBlanks) {items : List Json}
    (hitems : ∀ item ∈ items, ReadsBack layout item) {item : Json} (hitem : ReadsBack layout item)
    {gap : List Char} (hgap : ∀ c ∈ gap, isBlank c) (level : Nat) (rest : List Char)
    (before : List Json) {fuel : Nat}
    (hfuel : 2 * (writeOnto layout level (writeItems layout level (gap ++ ']' :: rest) items)
      item).length <
      fuel + 2 * rest.length) :
    readItems fuel before
      (writeOnto layout level (writeItems layout level (gap ++ ']' :: rest) items) item) =
      some (.array (before.reverse ++ item :: items), rest) := by
  have hclose : Ends (gap ++ ']' :: rest) := ends_append hgap rfl rest
  have hlonger : rest.length < (gap ++ ']' :: rest).length := by
    rw [List.length_append, List.length_cons]
    omega
  -- rest = closing at * :: All that the induction needs of the closing bracket is that it ends a
  -- value and that the rest is shorter.
  generalize hclosing : gap ++ ']' :: rest = closing at *
  induction items generalizing item before fuel with
  | nil =>
    have hlt := hitem.length_lt level closing
    rw [writeItems] at hfuel ⊢
    obtain ⟨fuel, rfl⟩ : ∃ f, fuel = f + 1 := ⟨fuel - 1, by omega⟩
    have hread : readValue fuel (writeOnto layout level closing item) = some (item, closing) :=
      hitem.reads hclose (by omega)
    refine readItems_of_last hread ?_
    rw [← hclosing]
    exact skipBlanks_append hgap rfl rest
  | cons next items ih =>
    obtain ⟨hnext, hothers⟩ := List.forall_mem_cons.mp hitems
    have hlt := hitem.length_lt level (writeItems layout level closing (next :: items))
    have hle := length_le_writeItems hitems level closing
    obtain ⟨fuel, rfl⟩ : ∃ f, fuel = f + 1 := ⟨fuel - 1, by omega⟩
    have hread : readValue fuel
      (writeOnto layout level (writeItems layout level closing (next :: items)) item) =
        some (item, writeItems layout level closing (next :: items)) :=
      hitem.reads (ends_writeItems _ level hclose) (by omega)
    -- Behind the comma less is left to read, so the fuel for it is less as well.
    have hshorter :
        (writeOnto layout level (writeItems layout level closing items) next).length + 1 ≤
        (writeItems layout level closing (next :: items)).length := by
      rw [writeItems, List.length_cons, List.length_append]
      omega
    rw [readItems_of_comma hread (skipBlanks_append (List.forall_mem_nil _) rfl _),
      hnext.skipBlanks_eq (hlayout.lineBreak level), ih hothers hnext (item :: before) (by omega)]
    rw [List.reverse_cons, List.append_assoc, List.singleton_append]

/-! ## Objects -/

variable {name : String} {value : Json} {members before : List (Option String × Json)}

/-- Members are written in front of what follows them. -/
theorem length_le_writeMembers (hmembers : ∀ member ∈ members, ReadsBack layout member.2)
    (level : Nat) (rest : List Char) :
    rest.length ≤ (writeMembers layout level rest members).length := by
  induction members with
  | nil => exact Nat.le_refl _
  | cons member members ih =>
    obtain ⟨hvalue, hmembers⟩ := List.forall_mem_cons.mp hmembers
    have hlt := hvalue.length_lt level (writeMembers layout level rest members)
    have hname := length_lt_writeChars (layout.colon ++ writeOnto layout level
      (writeMembers layout level rest members) member.2) (member.1.getD "").toList
    have hle := ih hmembers
    simp only [writeMembers, writeText, List.length_cons, List.length_append] at hname ⊢
    omega

/-- What follows a member ends its value. -/
theorem ends_writeMembers (members : List (Option String × Json)) (level : Nat) {rest : List Char}
    (hrest : Ends rest) : Ends (writeMembers layout level rest members) := by
  cases members with
  | nil => exact hrest
  | cons member members =>
    intro c hc
    obtain rfl : ',' = c := Option.some.inj hc
    rfl

/-- A name, a colon and a value. -/
def writeMember (layout : Layout) (level : Nat) (rest : List Char) (name : String) (value : Json) :
    List Char :=
  writeText name (layout.colon ++ writeOnto layout level rest value)

/-- The name of a member is written with it. -/
theorem length_lt_writeMember (layout : Layout) (level : Nat) (rest : List Char) (name : String)
    (value : Json) :
    (writeOnto layout level rest value).length
      < (writeMember layout level rest name value).length := by
  have hlt := length_lt_writeChars (layout.colon ++ writeOnto layout level rest value) name.toList
  rw [List.length_append] at hlt
  rw [writeMember, writeText, List.length_cons]
  omega

/-- What is done with a member depends on what stands behind it. -/
theorem readMembers_writeMember (hlayout : layout.OnlyBlanks) (hvalue : ReadsBack layout value)
    {level fuel : Nat} {behind : List Char} (hends : Ends behind)
    (hfuel : 2 * (writeMember layout level behind name value).length ≤ fuel + 2 * behind.length) :
    (∀ {rest}, skipBlanks behind = '\x7d' :: rest →
      readMembers (fuel + 1) before (writeMember layout level behind name value) =
        some (.object (before.reverse ++ [(some name, value)]), rest)) ∧
    ∀ {rest}, skipBlanks behind = ',' :: rest →
      readMembers (fuel + 1) before (writeMember layout level behind name value) =
        readMembers fuel ((some name, value) :: before) (skipBlanks rest) := by
  obtain ⟨gap, hcolon, hgap⟩ := hlayout.colon
  have hlt := length_lt_writeMember layout level behind name value
  have hread : readValue fuel (writeOnto layout level behind value) = some (value, behind) :=
    hvalue.reads hends (by omega)
  have hskip : skipBlanks (layout.colon ++ writeOnto layout level behind value) =
      ':' :: (gap ++ writeOnto layout level behind value) := by
    rw [hcolon]
    exact skipBlanks_append (List.forall_mem_nil _) rfl _
  constructor
  · intro rest hclose
    rw [writeMember, writeText, readMembers]
    simp only [readText_writeChars, hskip, hvalue.skipBlanks_eq hgap, hread, hclose,
      List.reverse_cons]
  · intro rest hcomma
    rw [writeMember, writeText, readMembers]
    simp only [readText_writeChars, hskip, hvalue.skipBlanks_eq hgap, hread, hcomma]

/-- Members are read one by one up to the closing brace. -/
theorem readMembers_writeMembers (hlayout : layout.OnlyBlanks)
    (hnames : ∀ member ∈ members, member.1.isSome)
    (hmembers : ∀ member ∈ members, ReadsBack layout member.2)
    (hvalue : ReadsBack layout value) {gap : List Char} (hgap : ∀ c ∈ gap, isBlank c) (level : Nat)
    (rest : List Char) {fuel : Nat}
    (hfuel : 2 * (writeMember layout level
      (writeMembers layout level (gap ++ '\x7d' :: rest) members)
      name value).length < fuel + 2 * rest.length) :
    readMembers fuel before
        (writeMember layout level (writeMembers layout level (gap ++ '\x7d' :: rest) members)
          name value) =
      some (.object (before.reverse ++ (some name, value) :: members), rest) := by
  have hclose : Ends (gap ++ '\x7d' :: rest) := ends_append hgap rfl rest
  have hlonger : rest.length < (gap ++ '\x7d' :: rest).length := by
    rw [List.length_append, List.length_cons]
    omega
  -- rest = closing at * :: As for items, the closing brace only has to end a value and to be longer
  -- than the rest.
  generalize hclosing : gap ++ '\x7d' :: rest = closing at *
  induction members generalizing name value before fuel with
  | nil =>
    have hlt := length_lt_writeMember layout level closing name value
    have hlt' := hvalue.length_lt level closing
    rw [writeMembers] at hfuel ⊢
    obtain ⟨fuel, rfl⟩ : ∃ f, fuel = f + 1 := ⟨fuel - 1, by omega⟩
    refine (readMembers_writeMember hlayout hvalue hclose (by omega)).1 ?_
    rw [← hclosing]
    exact skipBlanks_append hgap rfl rest
  | cons next members ih =>
    obtain ⟨nextName, nextValue⟩ := next
    obtain ⟨hsome, hlater⟩ := List.forall_mem_cons.mp hnames
    obtain ⟨nextName, rfl⟩ := Option.isSome_iff_exists.mp hsome
    have hnext : ReadsBack layout nextValue := (List.forall_mem_cons.mp hmembers).1
    have hothers := (List.forall_mem_cons.mp hmembers).2
    have hle := length_le_writeMembers hmembers level closing
    have hends : Ends (writeMembers layout level closing ((some nextName, nextValue) :: members)) :=
      ends_writeMembers _ level hclose
    have hlt := length_lt_writeMember layout level
      (writeMembers layout level closing ((some nextName, nextValue) :: members)) name value
    have hlt' := hvalue.length_lt level
      (writeMembers layout level closing ((some nextName, nextValue) :: members))
    -- The bounds on the fuel are all about lengths: what stands behind the comma is shorter.
    have hshorter : (writeMember layout level (writeMembers layout level closing members)
        nextName nextValue).length + 1 ≤
          (writeMembers layout level closing ((some nextName, nextValue) :: members)).length := by
      rw [writeMembers, List.length_cons, List.length_append, writeMember, Option.getD_some]
      omega
    obtain ⟨fuel, rfl⟩ : ∃ f, fuel = f + 1 := ⟨fuel - 1, by omega⟩
    have hstart : skipBlanks (layout.lineBreak level ++ writeMember layout level
        (writeMembers layout level closing members) nextName nextValue) =
          writeMember layout level (writeMembers layout level closing members) nextName nextValue :=
      skipBlanks_append (hlayout.lineBreak level) rfl _
    have hcomma :
        skipBlanks (writeMembers layout level closing ((some nextName, nextValue) :: members)) =
        ',' :: (layout.lineBreak level ++ writeMember layout level
          (writeMembers layout level closing members)
          nextName nextValue) :=
      skipBlanks_append (List.forall_mem_nil _) rfl _
    have hrest : readMembers fuel ((some name, value) :: before)
        (writeMember layout level (writeMembers layout level closing members) nextName nextValue) =
          some (.object (((some name, value) :: before).reverse ++ (some nextName, nextValue)
            :: members), rest) :=
      ih hlater hothers hnext (by omega)
    rw [(readMembers_writeMember hlayout hvalue hends (by omega)).2 hcomma, hstart, hrest,
      List.reverse_cons, List.append_assoc, List.singleton_append]

/-! ## Whole values -/

/-- A value takes up room, so there is fuel for it. -/
theorem readsBack_of_succ {j : Json}
    (hstarts : ∀ level rest, ∃ c cs, writeOnto layout level rest j = c :: cs ∧
      isBlank c = false ∧ c ≠ ']' ∧ rest.length ≤ cs.length)
    (hreads : ∀ level rest fuel, Ends rest →
      2 * (writeOnto layout level rest j).length ≤ fuel + 1 + 2 * rest.length →
      readValue (fuel + 1) (writeOnto layout level rest j) = some (j, rest)) :
        ReadsBack layout j := by
  refine ⟨hstarts, fun {level rest fuel} hends hfuel => ?_⟩
  obtain ⟨c, cs, hwrite, -, -, hle⟩ := hstarts level rest
  have hlength : (writeOnto layout level rest j).length = cs.length + 1 := by
    rw [hwrite, List.length_cons]
  obtain ⟨fuel, rfl⟩ : ∃ f, fuel = f + 1 := ⟨fuel - 1, by omega⟩
  exact hreads level rest fuel hends hfuel

/-- A numeral is read back if it is well-formed. -/
theorem readsBack_number {n : Numeral} (h : n.WellFormed) : ReadsBack layout (.number n) := by
  have hstarts : ∀ rest, ∃ c cs, n.write ++ rest = c :: cs ∧ (c = '-' ∨ c.isDigit) ∧
      rest.length ≤ cs.length := by
    intro rest
    obtain ⟨d, ds, hwhole⟩ := List.exists_cons_of_ne_nil h.whole.1
    have hd : d.isDigit := h.whole.2 d (hwhole ▸ List.mem_cons_self)
    unfold Numeral.write
    rw [hwhole]
    cases n.negative
    · exact ⟨d, _, rfl, .inr hd, by simp; omega⟩
    · exact ⟨'-', _, rfl, .inl rfl, by simp; omega⟩
  apply readsBack_of_succ
  · intro level rest
    obtain ⟨c, cs, hwrite, hc, hle⟩ := hstarts rest
    refine ⟨c, cs, hwrite, ?_, ?_, hle⟩
    · by_contra hblank
      rw [Bool.not_eq_false] at hblank
      -- Blanks are among the characters that end a value, and none of those starts a number.
      have hends : endsValue c := by simp [endsValue, hblank]
      rcases endsValue_iff.mp hends with rfl | rfl | rfl | rfl | rfl | rfl | rfl <;>
        rcases hc with hc | hc <;> cases hc
    · rintro rfl
      rcases hc with hc | hc <;> cases hc
  · intro level rest fuel hends _
    obtain ⟨c, cs, hwrite, hc, -⟩ := hstarts rest
    have hread := readNumeral_write h hends
    rw [writeOnto]
    rw [hwrite] at hread ⊢
    rw [readValue, hread]
    -- Nothing else starts with a minus or a digit.
    all_goals
      intro rest heq
      obtain ⟨rfl, -⟩ := List.cons.inj heq
      rcases hc with hc | hc <;> cases hc

/-- A list is read back if its items are. -/
theorem readsBack_array (hlayout : layout.OnlyBlanks) {items : List Json}
    (hitems : ∀ item ∈ items, ReadsBack layout item) : ReadsBack layout (.array items) := by
  cases items with
  | nil =>
    apply readsBack_of_succ
    · exact fun level rest => ⟨'[', _, rfl, rfl, by decide, by simp⟩
    · exact fun level rest fuel _ _ => rfl
  | cons item items =>
    obtain ⟨hitem, hitems⟩ := List.forall_mem_cons.mp hitems
    apply readsBack_of_succ
    · intro level rest
      refine ⟨'[', _, rfl, rfl, by decide, ?_⟩
      have hle := length_le_writeItems hitems (level + 1) (layout.lineBreak level ++ ']' :: rest)
      have hlt := hitem.length_lt (level + 1)
        (writeItems layout (level + 1) (layout.lineBreak level ++ ']' :: rest) items)
      simp only [List.length_append, List.length_cons] at hle ⊢
      omega
    · intro level rest fuel _ hfuel
      rw [writeOnto, List.length_cons, List.length_append] at hfuel
      rw [writeOnto, readValue]
      obtain ⟨c, cs, hwrite, -, hc, -⟩ := hitem.starts (level + 1)
        (writeItems layout (level + 1) (layout.lineBreak level ++ ']' :: rest) items)
      have hread : readItems fuel [] (writeOnto layout (level + 1) (writeItems layout (level + 1)
          (layout.lineBreak level ++ ']' :: rest) items) item)
            = some (.array (item :: items), rest) :=
        readItems_writeItems hlayout hitems hitem (hlayout.lineBreak level) (level + 1) rest
          [] (by omega)
      rw [hitem.skipBlanks_eq (hlayout.lineBreak (level + 1))]
      rw [hwrite] at hread ⊢
      split
      -- The item does not start with a closing bracket, so the list is not taken for an empty one.
      next heq => exact absurd (List.cons.inj heq).1 hc
      next => exact hread

/-- An object is read back if its members have names and their values are read back. -/
theorem readsBack_object (hlayout : layout.OnlyBlanks)
    (hnames : ∀ member ∈ members, member.1.isSome)
    (hmembers : ∀ member ∈ members, ReadsBack layout member.2) :
    ReadsBack layout (.object members) := by
  cases members with
  | nil =>
    apply readsBack_of_succ
    · exact fun level rest => ⟨'\x7b', _, rfl, rfl, by decide, by simp⟩
    · exact fun level rest fuel _ _ => rfl
  | cons member members =>
    obtain ⟨name, value⟩ := member
    obtain ⟨hsome, hlater⟩ := List.forall_mem_cons.mp hnames
    obtain ⟨name, rfl⟩ := Option.isSome_iff_exists.mp hsome
    have hvalue : ReadsBack layout value := (List.forall_mem_cons.mp hmembers).1
    have hothers := (List.forall_mem_cons.mp hmembers).2
    -- What stands behind the first member: the other ones and the closing brace.
    let others (level : Nat) (rest : List Char) : List Char :=
      writeMembers layout (level + 1) (layout.lineBreak level ++ '\x7d' :: rest) members
    have hwrite : ∀ level rest,
        writeOnto layout level rest (.object ((some name, value) :: members)) =
          '\x7b' :: (layout.lineBreak (level + 1) ++
            writeMember layout (level + 1) (others level rest) name value) := by
      intro level rest
      rw [writeOnto, writeMember, Option.getD_some]
    apply readsBack_of_succ
    · intro level rest
      refine ⟨'\x7b', _, hwrite level rest, rfl, by decide, ?_⟩
      have hle : (layout.lineBreak level ++ '\x7d' :: rest).length ≤ (others level rest).length :=
        length_le_writeMembers hothers (level + 1) _
      have hlt := hvalue.length_lt (level + 1) (others level rest)
      have hlt' := length_lt_writeMember layout (level + 1) (others level rest) name value
      simp only [List.length_append, List.length_cons] at hle ⊢
      omega
    · intro level rest fuel _ hfuel
      rw [hwrite, List.length_cons, List.length_append] at hfuel
      have hfuel' : 2 * (writeMember layout (level + 1) (others level rest) name value).length
          < fuel + 2 * rest.length := by
        omega
      have hread :
          readMembers fuel [] (writeMember layout (level + 1) (others level rest) name value) =
            some (.object ((some name, value) :: members), rest) :=
        readMembers_writeMembers hlayout hlater hothers hvalue (hlayout.lineBreak level)
          (level + 1) rest hfuel'
      rw [hwrite, readValue]
      have hskip : skipBlanks (layout.lineBreak (level + 1) ++
          writeMember layout (level + 1) (others level rest) name value) =
            writeMember layout (level + 1) (others level rest) name value :=
        skipBlanks_append (hlayout.lineBreak (level + 1)) rfl _
      rw [hskip]
      split
      -- A member starts with a quote, so the object is not taken for an empty one.
      next heq => cases (List.cons.inj heq).1
      next => exact hread

/-- Values are read as they are written. -/
theorem Proper.readsBack (hlayout : layout.OnlyBlanks) {j : Json} (h : j.Proper) :
    ReadsBack layout j := by
  induction h with
  | null =>
    apply readsBack_of_succ
    · exact fun level rest => ⟨'n', _, rfl, rfl, by decide, by simp; omega⟩
    · exact fun level rest fuel _ _ => rfl
  | bool b =>
    cases b
    · apply readsBack_of_succ
      · exact fun level rest => ⟨'f', _, rfl, rfl, by decide, by simp; omega⟩
      · exact fun level rest fuel _ _ => rfl
    · apply readsBack_of_succ
      · exact fun level rest => ⟨'t', _, rfl, rfl, by decide, by simp; omega⟩
      · exact fun level rest fuel _ _ => rfl
  | number h => exact readsBack_number h
  | text s =>
    apply readsBack_of_succ
    · exact fun level rest => ⟨'"', _, rfl, rfl, by decide, (length_lt_writeChars rest s.toList).le⟩
    · intro level rest fuel _ _
      show readValue (fuel + 1) ('"' :: writeChars rest s.toList) = _
      rw [readValue, readText_writeChars]
      rfl
  | array _ ih => exact readsBack_array hlayout ih
  | object hnames _ ih => exact readsBack_object hlayout hnames ih

/-- The whole text of a value is the value. -/
theorem Proper.read?_write (hlayout : layout.OnlyBlanks) {j : Json} (h : j.Proper) :
    read? (write layout j) = some j := by
  have hback := h.readsBack hlayout
  have hends : Ends [] := by
    intro c hc
    cases hc
  have hskip : skipBlanks (writeOnto layout 0 [] j) = writeOnto layout 0 [] j :=
    hback.skipBlanks_eq (List.forall_mem_nil _) 0 []
  have hread : readValue (2 * (writeOnto layout 0 [] j).length + 2) (writeOnto layout 0 [] j) =
      some (j, []) :=
    hback.reads hends (by omega)
  rw [read?, write, String.toList_ofList]
  simp only [hskip, hread]
  rfl

end Script.Json
