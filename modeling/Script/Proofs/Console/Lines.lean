import Mathlib.Data.List.TakeDrop
import Mathlib.Data.List.TakeWhile
import Script.Proofs.Machine.Stages

/-!
# Reading line by line

`scan` shows a prompt and reads a line. `scan_reads_line_by_line` says which line: the input is cut
into lines in one way only, and a call that shows its prompt reads the first of those that no call
before it has read. What it reads is gone, also if it is no text. A call that does not come to show
its prompt leaves the input alone.

## Shape of the proof

A `Line` is a body and one of three endings, so that all bytes of the input are in some line and
none is in two. What `splitLine` and `stripLineEnd` do is said about lines
(`splitLine_bytes_append`, `stripLineEnd_bytes`), and from that follows what one call does to the
lines that are left (`Scan.reads_run`). A run of calls is an induction over them. Between two calls
anything may happen that leaves the input alone: each call is made on a machine of its own.
-/

namespace Script

namespace Console

/-! ## Texts as bytes -/

/-- The bytes of a text. -/
def encode (s : String) : List UInt8 := s.toList.flatMap String.utf8EncodeChar

/-- The bytes of a text are those it is encoded as. -/
theorem toByteArray_eq_iff (s : String) (bytes : List UInt8) :
    s.toByteArray = ⟨bytes.toArray⟩ ↔ encode s = bytes := by
  rw [← String.utf8Encode_toList, List.utf8Encode.eq_1, ByteArray.ext_iff, List.data_toByteArray,
    ← Array.toList_inj]
  rfl

/-- Bytes are decoded to the text that is encoded as them. -/
theorem decode?_eq_some_iff {bytes : List UInt8} {s : String} :
    decode? bytes = some s ↔ encode s = bytes := by
  rw [← toByteArray_eq_iff, decode?, String.fromUTF8?]
  split
  next hvalid =>
    rw [Option.some_inj, ← String.toByteArray_inj]
    exact eq_comm
  next hvalid =>
    refine iff_of_false nofun fun h => hvalid ?_
    rw [← h]
    exact s.isValidUTF8

/-- Bytes cannot be decoded if no text is encoded as them. -/
theorem decode?_eq_none_iff {bytes : List UInt8} :
    decode? bytes = none ↔ ∀ s, encode s ≠ bytes := by
  simp only [Option.eq_none_iff_forall_ne_some, ne_eq, decode?_eq_some_iff]

/-- Only the characters of one byte end with a byte below 128. -/
theorem utf8EncodeChar_cases (c : Char) :
    (∃ last, String.utf8EncodeChar c = [last]) ∨
      ∃ start last, String.utf8EncodeChar c = start ++ [last] ∧ 128 ≤ last := by
  have hlast : ∀ n : Nat, 128 ≤ UInt8.ofNat (n % 64 + 128) := fun n => by
    rw [UInt8.le_iff_toNat_le, UInt8.toNat_ofNat_of_lt' (by unfold UInt8.size; omega)]
    exact Nat.le_add_left _ _
  rw [String.utf8EncodeChar.eq_1]
  split
  · exact .inl ⟨_, rfl⟩
  split
  · exact .inr ⟨[_], _, rfl, hlast _⟩
  split
  · exact .inr ⟨[_, _], _, rfl, hlast _⟩
  · exact .inr ⟨[_, _, _], _, rfl, hlast _⟩

/-- A text without its last byte is a text, if that is below 128. -/
theorem exists_encode_of_concat {s : String} {bytes : List UInt8} {last : UInt8}
    (hlast : last < 128) (h : encode s = bytes ++ [last]) : ∃ t, encode t = bytes := by
  unfold encode at h
  rcases List.eq_nil_or_concat s.toList with hnil | ⟨chars, c, hconcat⟩
  · simp [hnil] at h
  · rw [hconcat, List.concat_eq_append, List.flatMap_append, List.flatMap_singleton] at h
    rcases utf8EncodeChar_cases c with ⟨last', hc⟩ | ⟨start, last', hc, hlarge⟩
    · rw [hc] at h
      refine ⟨String.ofList chars, ?_⟩
      rw [encode, String.toList_ofList]
      exact (List.append_inj' h rfl).1
    · rw [hc, ← List.append_assoc] at h
      have heq : [last'] = [last] := (List.append_inj' h rfl).2
      rw [List.singleton_inj] at heq
      exact absurd hlarge (heq ▸ UInt8.not_le.mpr hlast)

/-! ## Lines -/

/-- How a line ends. -/
inductive Ending where
  /-- With the input. -/
  | missing
  /-- With a line feed. -/
  | feed
  /-- With a carriage return and a line feed. -/
  | returnFeed
deriving DecidableEq

/-- The bytes of an ending. -/
def Ending.bytes : Ending → List UInt8
  | .missing => []
  | .feed => [lineFeed]
  | .returnFeed => [carriageReturn, lineFeed]

/-- The endings of lines are different bytes. -/
theorem Ending.bytes_injective {ending ending' : Ending} (h : ending.bytes = ending'.bytes) :
    ending = ending' := by
  revert h
  cases ending <;> cases ending' <;> simp [Ending.bytes]

/-- A line of input. All that can belong to its ending does, and it is never empty. -/
structure Line where
  /-- The bytes before the ending. -/
  body : List UInt8
  /-- How the line ends. -/
  ending : Ending
  unbroken : lineFeed ∉ body
  stripped : ending = .feed → body.getLast? ≠ some carriageReturn
  body_ne_nil : ending = .missing → body ≠ []

namespace Line

/-- The bytes of a line. -/
def bytes (line : Line) : List UInt8 := line.body ++ line.ending.bytes

/-- Lines are those of an input if they are its bytes in order and none but the last one has no
ending. -/
structure Split (lines : List Line) (input : List UInt8) : Prop where
  bytes_eq : lines.flatMap bytes = input
  ended : ∀ line ∈ lines.dropLast, line.ending ≠ .missing

/-- No line is empty: its body or its ending has a byte. -/
theorem bytes_ne_nil (line : Line) : line.bytes ≠ [] := by
  unfold bytes
  cases hending : line.ending with
  | missing => simpa using fun hbody => absurd hbody (line.body_ne_nil hending)
  | feed | returnFeed => simp [Ending.bytes]

/-- The bytes of a line that is ended, up to its line feed. -/
theorem exists_bytes_eq_concat {line : Line} (h : line.ending ≠ .missing) :
    ∃ start, line.bytes = start ++ [lineFeed] ∧ lineFeed ∉ start := by
  cases hending : line.ending with
  | missing => exact absurd hending h
  | feed => exact ⟨line.body, by rw [bytes, hending, Ending.bytes], line.unbroken⟩
  | returnFeed =>
    refine ⟨line.body ++ [carriageReturn], by simp [bytes, hending, Ending.bytes], ?_⟩
    simpa [carriageReturn, lineFeed] using line.unbroken

/-- Without its ending a line is its body. -/
theorem stripLineEnd_bytes (line : Line) : stripLineEnd line.bytes = line.body := by
  unfold stripLineEnd bytes
  cases hending : line.ending with
  | missing =>
    rw [Ending.bytes, List.append_nil, if_neg fun h => line.unbroken (List.mem_of_getLast? h)]
  | feed => simp [Ending.bytes, line.stripped hending]
  | returnFeed =>
    rw [Ending.bytes, List.append_cons]
    simp

/-- A line is its bytes. -/
theorem bytes_injective {line line' : Line} (h : line.bytes = line'.bytes) : line = line' := by
  have hbody : line.body = line'.body := by rw [← stripLineEnd_bytes, h, stripLineEnd_bytes]
  have hending : line.ending.bytes = line'.ending.bytes := by
    rw [bytes, bytes, hbody] at h
    exact List.append_cancel_left h
  obtain ⟨body, ending, _, _, _⟩ := line
  obtain ⟨body', ending', _, _, _⟩ := line'
  obtain rfl : body = body' := hbody
  obtain rfl : ending = ending' := Ending.bytes_injective hending
  rfl

/-- The text of a line is that of its body: a line is a text if and only if its body is one. -/
theorem exists_encode_body_of_bytes {line : Line} {s : String} (h : encode s = line.bytes) :
    ∃ t, encode t = line.body := by
  unfold bytes at h
  cases hending : line.ending with
  | missing =>
    rw [hending, Ending.bytes, List.append_nil] at h
    exact ⟨s, h⟩
  | feed =>
    rw [hending] at h
    exact exists_encode_of_concat (by decide) h
  | returnFeed =>
    rw [hending, Ending.bytes, List.append_cons] at h
    obtain ⟨t, ht⟩ := exists_encode_of_concat (by decide) h
    exact exists_encode_of_concat (by decide) ht

/-! ### Taking the first line -/

/-- Bytes without a line feed are one line. -/
theorem splitLine_of_notMem {bytes : List UInt8} (h : lineFeed ∉ bytes) :
    splitLine bytes = (bytes, []) := by
  have hall : ∀ b ∈ bytes, (b != lineFeed) = true := fun b hb => by
    simpa using fun heq : b = lineFeed => h (heq ▸ hb)
  rw [splitLine, List.span_eq_takeWhile_dropWhile, List.takeWhile_eq_self_iff.mpr hall,
    List.dropWhile_eq_nil_iff.mpr hall]

/-- The first line ends with the first line feed. -/
theorem splitLine_of_feed {start : List UInt8} (h : lineFeed ∉ start) (rest : List UInt8) :
    splitLine (start ++ lineFeed :: rest) = (start ++ [lineFeed], rest) := by
  have hall : ∀ b ∈ start, (b != lineFeed) = true := fun b hb => by
    simpa using fun heq : b = lineFeed => h (heq ▸ hb)
  rw [splitLine, List.span_eq_takeWhile_dropWhile, List.takeWhile_append_of_pos hall,
    List.dropWhile_append_of_pos hall]
  simp

/-- The first line is taken as a whole, and nothing behind it. -/
theorem splitLine_bytes_append {line : Line} {rest : List UInt8}
    (h : line.ending = .missing → rest = []) :
    splitLine (line.bytes ++ rest) = (line.bytes, rest) := by
  by_cases hending : line.ending = .missing
  · obtain rfl := h hending
    rw [List.append_nil]
    refine splitLine_of_notMem ?_
    rw [bytes, hending, Ending.bytes, List.append_nil]
    exact line.unbroken
  · obtain ⟨start, hbytes, hstart⟩ := exists_bytes_eq_concat hending
    rw [hbytes, List.append_assoc]
    exact splitLine_of_feed hstart rest

/-- What is read first is the first line, and the rest is left. -/
theorem readLine_bytes_append (console : Console) {line : Line} {rest : List UInt8}
    (h : line.ending = .missing → rest = []) :
    Console.readLine { console with input := line.bytes ++ rest }
      = ((decode? line.body).elim (.error .notText) .ok, { console with input := rest }) := by
  simp only [Console.readLine, splitLine_bytes_append h, stripLineEnd_bytes]
  exact if_neg (by simpa using line.bytes_ne_nil)

/-- The line that has a line feed after some bytes. -/
theorem exists_line_of_feed {start : List UInt8} (h : lineFeed ∉ start) :
    ∃ line : Line, line.bytes = start ++ [lineFeed] ∧ line.ending ≠ .missing := by
  by_cases hreturn : start.getLast? = some carriageReturn
  · obtain ⟨body, rfl⟩ := List.getLast?_eq_some_iff.mp hreturn
    have hbody : lineFeed ∉ body := fun hmem => h (List.mem_append_left _ hmem)
    exact ⟨⟨body, .returnFeed, hbody, Ending.noConfusion, Ending.noConfusion⟩,
      by simp [bytes, Ending.bytes], Ending.noConfusion⟩
  · exact ⟨⟨start, .feed, h, fun _ => hreturn, Ending.noConfusion⟩, rfl, Ending.noConfusion⟩

/-- The first line of an input that is not empty. -/
theorem exists_line_append {input : List UInt8} (h : input ≠ []) :
    ∃ (line : Line) (rest : List UInt8),
      input = line.bytes ++ rest ∧ (line.ending = .missing → rest = []) := by
  by_cases hfeed : lineFeed ∈ input
  · obtain ⟨start, rest, rfl, hstart⟩ := List.eq_append_cons_of_mem hfeed
    obtain ⟨line, hbytes, hended⟩ := exists_line_of_feed hstart
    exact ⟨line, rest,
      by rw [hbytes, List.append_assoc]; rfl, fun hmissing => absurd hmissing hended⟩
  · exact ⟨⟨input, .missing, hfeed, Ending.noConfusion, fun _ => h⟩, [],
      by rw [bytes, Ending.bytes, List.append_nil, List.append_nil], fun _ => rfl⟩

namespace Split

/-- Where there are no bytes there are no lines. -/
theorem nil_iff {lines : List Line} : Split lines [] ↔ lines = [] := by
  constructor
  · intro h
    cases lines with
    | nil => rfl
    | cons line lines => exact absurd (List.append_eq_nil_iff.mp h.bytes_eq).1 line.bytes_ne_nil
  · rintro rfl
    exact ⟨rfl, fun _ hmem => absurd hmem List.not_mem_nil⟩

/-- Lines are those of an input if the first is, and the others are those of the rest. -/
theorem cons_iff {line : Line} {lines : List Line} {rest : List UInt8} :
    Split (line :: lines) (line.bytes ++ rest) ↔
      (line.ending = .missing → rest = []) ∧ Split lines rest := by
  constructor
  · rintro ⟨hbytes, hended⟩
    have hrest : lines.flatMap bytes = rest := List.append_cancel_left hbytes
    refine ⟨fun hmissing => ?_, hrest, fun line' hmem => hended line' ?_⟩
    · cases lines with
      | nil => exact hrest.symm
      | cons next lines => exact absurd hmissing (hended line List.mem_cons_self)
    · cases lines with
      | nil => exact absurd hmem List.not_mem_nil
      | cons next lines => exact List.mem_cons_of_mem line hmem
  · rintro ⟨hmissing, hbytes, hended⟩
    refine ⟨by rw [List.flatMap_cons, hbytes], fun line' hmem => ?_⟩
    cases lines with
    | nil => exact absurd hmem List.not_mem_nil
    | cons next lines =>
      rcases List.mem_cons.mp hmem with rfl | hmem
      · intro h
        exact next.bytes_ne_nil (List.append_eq_nil_iff.mp (hbytes.trans (hmissing h))).1
      · exact hended line' hmem

/-- Every input is made of lines. -/
theorem exists_split (input : List UInt8) : ∃ lines, Split lines input := by
  induction hlength : input.length using Nat.strong_induction_on generalizing input with
  | _ n ih =>
    subst hlength
    by_cases hempty : input = []
    · exact ⟨[], hempty ▸ nil_iff.mpr rfl⟩
    · obtain ⟨line, rest, rfl, hmissing⟩ := exists_line_append hempty
      have hshorter : rest.length < (line.bytes ++ rest).length := by
        have := List.length_pos_iff.mpr line.bytes_ne_nil
        rw [List.length_append]
        omega
      obtain ⟨lines, hlines⟩ := ih rest.length hshorter rest rfl
      exact ⟨line :: lines, cons_iff.mpr ⟨hmissing, hlines⟩⟩

/-- There is one way only to cut an input into lines. -/
theorem unique {lines lines' : List Line} {input : List UInt8} (h : Split lines input)
    (h' : Split lines' input) : lines = lines' := by
  induction lines generalizing lines' input with
  | nil =>
    obtain rfl : [] = input := h.bytes_eq
    exact (nil_iff.mp h').symm
  | cons line lines ih =>
    cases lines' with
    | nil =>
      obtain rfl : [] = input := h'.bytes_eq
      exact absurd (nil_iff.mp h) (List.cons_ne_nil _ _)
    | cons line' lines' =>
      obtain rfl : line.bytes ++ lines.flatMap bytes = input := h.bytes_eq
      obtain ⟨hmissing, hlines⟩ := cons_iff.mp h
      have hbytes : line'.bytes ++ lines'.flatMap bytes = line.bytes ++ lines.flatMap bytes :=
        h'.bytes_eq
      rw [← hbytes] at h'
      obtain ⟨hmissing', hlines'⟩ := cons_iff.mp h'
      -- Both are what is read first.
      have hsplit := (splitLine_bytes_append hmissing').symm.trans
        ((congrArg splitLine hbytes).trans (splitLine_bytes_append hmissing))
      obtain ⟨hfirst, hrest⟩ := Prod.mk.inj hsplit
      rw [bytes_injective hfirst, ih hlines (hrest ▸ hlines')]

/-- The lines behind some of them are those of the rest. -/
theorem drop {lines : List Line} {input : List UInt8} (h : Split lines input) (k : Nat) :
    Split (lines.drop k) ((lines.drop k).flatMap bytes) := by
  induction k generalizing lines input with
  | zero => exact h.bytes_eq ▸ h
  | succ k ih =>
    cases lines with
    | nil => exact nil_iff.mpr rfl
    | cons line lines =>
      obtain rfl : line.bytes ++ lines.flatMap bytes = input := h.bytes_eq
      exact ih (cons_iff.mp h).2

end Split

end Line

end Console

open Console

/-! ## One call -/

/-- A call of `scan`. What there is to read is given apart from the machine that the call is made
on. -/
structure Scan where
  args : List Value
  caller : ScopeId
  fuel : Nat
  machine : Machine

namespace Scan

/-- The machine with a console that has some bytes to read. -/
def on (scan : Scan) (console : Console) (unread : List UInt8) : Machine :=
  { scan.machine with console := { console with input := unread } }

/-- The call, with some bytes to read. -/
def run (scan : Scan) (settings : Settings) (unread : List UInt8) :
    EStateM.Result Failure Machine Value :=
  call settings (scan.fuel + 1) (.builtin .scan) scan.args scan.caller
    (scan.on scan.machine.console unread)

/-- The console with the prompt on it, or why the prompt is not shown. -/
def prompted (scan : Scan) : Except Fault Console :=
  (Builtin.scanPrompt scan.args).bind fun prompt =>
    (scan.machine.console.write prompt).mapError .console

/-- Whether the prompt is shown. -/
def isPrompted (scan : Scan) : Bool := scan.prompted.toBool

/-- What a call does when there are some lines to read, and which of them it leaves. -/
inductive Reads (scan : Scan) :
    List Line → EStateM.Result Failure Machine Value → List Line → Prop where
  /-- Without a prompt nothing is read, and nothing else happens. -/
  | refused {lines fault} (h : scan.prompted = .error fault) :
    Reads scan lines
      (.error (.error ⟨fault, none⟩) (scan.on scan.machine.console (lines.flatMap Line.bytes)))
        lines
  /-- All lines are read. -/
  | ended {console fault} (h : scan.prompted = .ok console) (hkind : fault.kind = .ioError)
      (hmessage : fault.message = "IO error: end of input") :
    Reads scan [] (.error (.error ⟨fault, none⟩) (scan.on console [])) []
  /-- The first line is read. -/
  | text {console line lines s} (h : scan.prompted = .ok console) (htext : encode s = line.body) :
    Reads scan (line :: lines) (.ok (.text s) (scan.on console (lines.flatMap Line.bytes))) lines
  /-- The first line is consumed, but is no text. -/
  | notText {console line lines fault} (h : scan.prompted = .ok console)
      (htext : ∀ s, encode s ≠ line.bytes) (hkind : fault.kind = .ioError) :
    Reads scan (line :: lines)
      (.error (.error ⟨fault, none⟩) (scan.on console (lines.flatMap Line.bytes))) lines

/-- Whether a text can be written does not depend on what there is to read. -/
theorem write_on (scan : Scan) (unread : List UInt8) (text : String) :
    (scan.on scan.machine.console unread).console.write text
      = (scan.machine.console.write text).map fun console => { console with input := unread } := by
  have hroom : (scan.on scan.machine.console unread).console.hasRoom text.utf8ByteSize
      = scan.machine.console.hasRoom text.utf8ByteSize := rfl
  unfold Console.write
  rw [hroom]
  split
  · rfl
  · split <;> rfl

/-- A call of `scan` shows its prompt and reads a line. -/
theorem run_eq (scan : Scan) (settings : Settings) (unread : List UInt8) :
    scan.run settings unread
      = Builtin.scanLine scan.args (scan.on scan.machine.console unread) := by
  rw [run, call_succ]
  rfl

/-- What a call does before it reads. -/
theorem prompted_cases (scan : Scan) (settings : Settings) (unread : List UInt8) :
    (∃ fault, scan.prompted = .error fault ∧
      scan.run settings unread
        = .error (.error ⟨fault, none⟩) (scan.on scan.machine.console unread)) ∨
    ∃ console, scan.prompted = .ok console ∧
      scan.run settings unread
        = (do return .text (← Call.readLine) : Call Value) (scan.on console unread) := by
  rw [prompted, run_eq, Builtin.scanLine]
  cases hprompt : Builtin.scanPrompt scan.args with
  | error fault => exact .inl ⟨fault, rfl, rfl⟩
  | ok prompt =>
    show (∃ fault, (scan.machine.console.write prompt).mapError Fault.console = .error fault ∧
        (do Call.write prompt; return .text (← Call.readLine) : Call Value) _ = _) ∨
      ∃ console, (scan.machine.console.write prompt).mapError Fault.console = .ok console ∧
        (do Call.write prompt; return .text (← Call.readLine) : Call Value) _ = _
    -- Writing the prompt does not depend on what is left to read.
    cases hwrite : scan.machine.console.write prompt with
    | error fault =>
      refine .inl ⟨.console fault, rfl, run_bind_of_error ?_⟩
      rw [Call.write, write_on, hwrite]
      rfl
    | ok console =>
      have hshown : Call.write prompt (scan.on scan.machine.console unread)
          = .ok () (scan.on console unread) := by
        rw [Call.write, write_on, hwrite]
        rfl
      exact .inr ⟨console, rfl, run_bind_of_ok hshown⟩

/-- A call reads the first of the lines that are left. -/
theorem reads_run (scan : Scan) (settings : Settings) {lines : List Line} {unread : List UInt8}
    (h : Line.Split lines unread) :
    scan.Reads lines (scan.run settings unread)
      (if scan.isPrompted then lines.tail else lines) := by
  unfold isPrompted
  rcases scan.prompted_cases settings unread
    with ⟨fault, hprompted, hrun⟩ | ⟨console, hprompted, hrun⟩
  · rw [hrun, hprompted, ← h.bytes_eq]
    exact .refused hprompted
  · rw [hrun, hprompted]
    show scan.Reads lines _ lines.tail
    cases lines with
    | nil =>
      obtain rfl : [] = unread := h.bytes_eq
      exact .ended hprompted rfl rfl
    | cons line lines =>
      obtain rfl : line.bytes ++ lines.flatMap Line.bytes = unread := h.bytes_eq
      have hread := Line.readLine_bytes_append console (Line.Split.cons_iff.mp h).1
      -- The line is taken off the input whether or not it is text.
      cases htext : decode? line.body with
      | some s =>
        have hline : Call.readLine (scan.on console (line.bytes ++ lines.flatMap Line.bytes))
            = .ok s (scan.on console (lines.flatMap Line.bytes)) := by
          rw [Call.readLine, on, hread, htext]
          rfl
        rw [run_bind_of_ok hline]
        exact .text hprompted (decode?_eq_some_iff.mp htext)
      | none =>
        have hline : Call.readLine (scan.on console (line.bytes ++ lines.flatMap Line.bytes))
            = .error (.error ⟨.console .notText, none⟩)
              (scan.on console (lines.flatMap Line.bytes)) := by
          rw [Call.readLine, on, hread, htext]
          rfl
        rw [run_bind_of_error hline]
        refine .notText hprompted (fun s hs => ?_) rfl
        obtain ⟨t, ht⟩ := Line.exists_encode_body_of_bytes hs
        exact decode?_eq_none_iff.mp htext t ht

/-- What is left to read are the lines that are left. -/
theorem Reads.input_eq {scan : Scan} {lines lines' : List Line}
    {result : EStateM.Result Failure Machine Value} (h : scan.Reads lines result lines') :
    (Machine.after result).console.input = lines'.flatMap Line.bytes := by
  cases h <;> rfl

end Scan

/-! ## Calls in turn -/

/-- What is left to read after some calls. -/
def unreadAfter (settings : Settings) : List UInt8 → List Scan → List UInt8
  | unread, [] => unread
  | unread, scan :: scans =>
    unreadAfter settings (Machine.after (scan.run settings unread)).console.input scans

/-- Each call that shows its prompt takes a line away. -/
theorem unreadAfter_eq (settings : Settings) {lines : List Line} {input : List UInt8}
    (h : Line.Split lines input) (scans : List Scan) :
    unreadAfter settings input scans
      = (lines.drop (scans.countP Scan.isPrompted)).flatMap Line.bytes := by
  induction scans generalizing lines input with
  | nil => exact h.bytes_eq.symm
  | cons scan scans ih =>
    rw [unreadAfter, (scan.reads_run settings h).input_eq]
    cases hprompted : scan.isPrompted with
    | true =>
      rw [List.countP_cons_of_pos hprompted, ← List.drop_tail, if_pos rfl]
      exact ih (List.drop_one ▸ h.drop 1)
    | false =>
      rw [List.countP_cons_of_neg (Bool.eq_false_iff.mp hprompted)]
      exact ih (h.drop 0)

/-- An input is cut into lines in one way only. After any calls, the lines of those that showed
their prompt and what is left are the input again. The next call reads the first line that is left
and returns its body; or there is no line left, or the line is no text but consumed all the same; or
the call does not come to show its prompt and leaves the input alone. -/
theorem scan_reads_line_by_line (settings : Settings) (input : List UInt8) :
    ∃ lines, Line.Split lines input ∧ (∀ lines', Line.Split lines' input → lines' = lines) ∧
      ∀ before : List Scan, ∃ k, k = before.countP Scan.isPrompted ∧
        (lines.take k).flatMap Line.bytes ++ unreadAfter settings input before = input ∧
        ∀ scan : Scan,
          scan.Reads (lines.drop k) (scan.run settings (unreadAfter settings input before))
            (if scan.isPrompted then lines.drop (k + 1) else lines.drop k) := by
  obtain ⟨lines, hlines⟩ := Line.Split.exists_split input
  refine ⟨lines, hlines, fun lines' hlines' => hlines'.unique hlines, fun before => ?_⟩
  refine ⟨_, rfl, ?_, fun scan => ?_⟩
  · rw [unreadAfter_eq settings hlines, ← List.flatMap_append, List.take_append_drop]
    exact hlines.bytes_eq
  · rw [unreadAfter_eq settings hlines, ← List.tail_drop]
    exact scan.reads_run settings (hlines.drop _)

end Script
