import Mathlib
import Script.Prompt
import Script.Proofs.Console.Lines
import Script.Proofs.Machine.Histories
import Script.Proofs.Parser.Names

/-!
# The listing of variables

The listing is made of lines that are sorted as texts, the values included. Still the names are in
order, and each is listed once (`listing_is_in_order_of_names`).

## Shape of the proof

Whatever a session runs, its global names stay apart from each other and are words
(`Session.WellNamed`). That they stay apart is an invariant of the evaluator. That they are words
follows from what a run leaves alone: a name that was not there before is one that the program
assigns to, and those are words of its source.

The order of two lines is then that of their names. Where neither name is the start of the other one
this is clear, and otherwise the line of the shorter name goes on with a blank, which is below all
that the longer name can go on with.
-/

namespace Script

/-! ## The names of a scope -/

namespace Bindings

variable {b : Bindings}

/-- The names that are bound. -/
def names (b : Bindings) : List String := b.entries.map Prod.fst

/-- No name is bound twice. -/
def Distinct (b : Bindings) : Prop := b.names.Nodup

/-- A name that is bound already keeps its place, and another one comes last. -/
theorem map_fst_insertEntry (name : String) (value : Value) (entries : List (String × Value)) :
    (insertEntry name value entries).map Prod.fst
      = if name ∈ entries.map Prod.fst then entries.map Prod.fst
        else entries.map Prod.fst ++ [name] := by
  induction entries with
  | nil => simp [insertEntry]
  | cons entry entries ih =>
    by_cases hentry : entry.1 = name
    · simp [insertEntry, hentry]
    · rw [insertEntry, if_neg hentry, List.map_cons, ih, List.map_cons]
      simp only [List.mem_cons, Ne.symm hentry, false_or, List.cons_append]
      split <;> rfl

theorem distinct_empty : empty.Distinct := List.nodup_nil

/-- To bind a name binds it once. -/
theorem Distinct.insert (h : b.Distinct) (name : String) (value : Value) :
    (b.insert name value).Distinct := by
  rw [Distinct, names, Bindings.insert, map_fst_insertEntry]
  split
  · exact h
  · next hname => exact List.concat_eq_append ▸ h.concat hname

theorem Distinct.erase (h : b.Distinct) (name : String) : (b.erase name).Distinct :=
  h.sublist (List.filter_sublist.map _)

/-- If no name is bound twice, a name has the value that is next to it. -/
theorem Distinct.get?_eq_some_iff (h : b.Distinct) {name : String} {value : Value} :
    b.get? name = some value ↔ (name, value) ∈ b.entries := by
  simp only [get?, Option.map_eq_some_iff]
  constructor
  · rintro ⟨⟨name', _⟩, hfind, rfl⟩
    obtain rfl : name' = name := by simpa using List.find?_some hfind
    exact List.mem_of_find?_eq_some hfind
  · intro hmem
    cases hfind : b.entries.find? fun entry => entry.1 == name with
    | none => exact absurd (List.find?_eq_none.1 hfind _ hmem) (by simp)
    | some entry =>
      have hname : entry.1 = name := by simpa using List.find?_some hfind
      have hentry := List.inj_on_of_nodup_map h (List.mem_of_find?_eq_some hfind) hmem hname
      exact ⟨entry, rfl, by rw [hentry]⟩

theorem mem_names_iff {name : String} : name ∈ b.names ↔ b.get? name ≠ none := by
  simp [names, get?, List.find?_eq_none]

/-! ## In order of the names -/

theorem mem_sorted {entry : String × Value} : entry ∈ b.sorted ↔ entry ∈ b.entries :=
  (List.mergeSort_perm _ _).mem_iff

/-- Sorted variables have increasing names. -/
theorem Distinct.pairwise_sorted (h : b.Distinct) : b.sorted.Pairwise fun x y => x.1 < y.1 := by
  have hle : b.sorted.Pairwise fun x y => decide (x.1 ≤ y.1) = true := by
    refine List.pairwise_mergeSort ?_ ?_ b.entries
    · intro x y z hxy hyz
      rw [decide_eq_true_eq] at hxy hyz ⊢
      exact le_trans hxy hyz
    · intro x y
      rw [Bool.or_eq_true, decide_eq_true_eq, decide_eq_true_eq]
      exact le_total x.1 y.1
  have hne : b.sorted.Pairwise fun x y => x.1 ≠ y.1 :=
    List.pairwise_map.1 (((List.mergeSort_perm _ _).map Prod.fst).nodup_iff.2 h)
  exact hle.imp₂ (fun x y hxy hne => lt_of_le_of_ne (of_decide_eq_true hxy) hne) hne

end Bindings

/-! ## Runs keep names apart -/

/-- What holds of the scopes holds after a computation that leaves them as they are. -/
theorem LeavesScopes.keeps {ε α : Type} {x : EStateM ε Machine α} (h : LeavesScopes x)
    (inv : ScopeTree → Prop) :
    Keeps (fun m => inv m.scopes) (fun _ => True) (fun _ => True) x := by
  intro m hm
  have hscopes := h.scopes_eq m
  cases hrun : x m with
  | ok a m' =>
    rw [hrun] at hscopes
    exact ⟨(congrArg inv hscopes).mpr hm, trivial⟩
  | error e m' =>
    rw [hrun] at hscopes
    exact ⟨(congrArg inv hscopes).mpr hm, trivial⟩

/-- A node that binds and unbinds names leaves none of them bound twice. -/
theorem distinct_eval (settings : Settings) (fuel : Nat) (node : Node) (site : Site)
    (scope : ScopeId) :
    Keeps (fun m => (m.scopes.bindings scope).Distinct) (Value.Admits fun _ _ => True)
      (fun _ => True)
      (eval settings fuel node site scope) := by
  have hadmits : ∀ v : Value, v.Admits fun _ _ => True := Value.admits_of_forall fun _ _ => trivial
  -- To update a scope that does not exist changes nothing, and there are no bindings in it.
  have hupdate :
      ∀ (m : Machine) (f : Bindings → Bindings), (∀ b : Bindings, b.Distinct → (f b).Distinct) →
      (m.scopes.bindings scope).Distinct → ((m.scopes.update scope f).bindings scope).Distinct := by
    intro m f hf hm
    by_cases hscope : scope < m.scopes.size
    · rw [ScopeTree.bindings_update_self hscope]
      exact hf _ hm
    · rw [ScopeTree.bindings_of_size_le
        (by rw [ScopeTree.size_update]; exact Nat.le_of_not_lt hscope)]
      exact Bindings.distinct_empty
  induction fuel generalizing node site with
  | zero =>
    intro m hm
    rw [eval_zero]
    exact ⟨hm, trivial⟩
  | succ fuel ih =>
    rw [eval_succ]
    -- A call has scopes of its own, so only the bindings that the node makes itself are of
    -- interest.
    have hcall : ∀ callee args,
      Keeps (fun m => (m.scopes.bindings scope).Distinct) (Value.Admits fun _ _ => True)
        (fun _ => True) (call settings fuel callee args scope) := by
      intro callee args
      have hleaves := (touches_eval_call settings fuel).2 callee args scope
      exact (hleaves.keeps fun scopes => (scopes.bindings scope).Distinct).mono
        (fun v _ => hadmits v) fun _ h => h
    refine .evalNode (fun callee args _ _ => hcall callee args) (fun _ _ _ _ _ => hadmits _)
      (fun _ _ _ _ => ih _ _) (fun _ _ _ _ => .iteration (ih _ _) fun _ _ _ _ => trivial) ?_ ?_
      (.of_forall fun _ => trivial) (fun _ _ => trivial) fun _ _ => trivial
    · exact fun name _ m v hm _ => hupdate m _ (fun b hb => hb.insert name v) hm
    · exact fun name _ m hm => hupdate m _ (fun b hb => hb.erase name) hm

/-! ## Sessions -/

namespace Session

variable {session : Session}

/-- The names that are bound globally are words, and none is bound twice. -/
structure WellNamed (session : Session) : Prop where
  distinct : (session.machine.scopes.bindings ScopeTree.rootId).Distinct
  words : ∀ name, session.global? name ≠ none → isWord name.toList

/-- The names of the built-in functions are different. -/
theorem distinct_globals : globals.Distinct := by
  refine List.foldlRecOn Builtin.all _ ?_ fun b hb function _ => hb.insert function.name _
  exact (Bindings.distinct_empty.insert "true" _).insert "false" _

theorem isWord_of_mem_globals : ∀ name ∈ globals.names, isWord name.toList :=
  List.all_eq_true.mp rfl

/-- A global variable is one of the global scope. -/
theorem global?_eq (session : Session) (name : String) :
    session.global? name = (session.machine.scopes.bindings ScopeTree.rootId).get? name :=
  ScopeTree.get?_rootId _ name

/-- A new session has nothing but built-in functions. -/
theorem wellNamed_new (settings : Settings) (console : Console) (units : Nat) :
    (new settings console units).WellNamed := by
  refine ⟨distinct_globals, fun name hname => isWord_of_mem_globals name ?_⟩
  rw [global?_eq] at hname
  exact Bindings.mem_names_iff.2 hname

/-- A program that assigns to words only leaves a session well-named. -/
theorem WellNamed.runProgram (h : session.WellNamed) (fuel : Nat) {program : Program}
    (hwords : program.tree.Assigns fun name => isWord name.toList) :
    (session.runProgram fuel program).2.WellNamed where
  distinct := by
    rw [machine_runProgram]
    exact (distinct_eval session.settings fuel program.tree (.root program.unit)
      ScopeTree.rootId).after h.distinct
  words := by
    intro name hname
    by_cases hassigned : name ∈ program.tree.assigned
    · exact hwords name hassigned
    · rw [global?_runProgram session fuel program hassigned] at hname
      exact h.words name hname

/-- A call from outside leaves a session well-named. -/
theorem WellNamed.callValue (h : session.WellNamed) (fuel : Nat) (callee : Value)
    (args : List Value) :
    (session.callValue fuel callee args).2.WellNamed := by
  have hscopes : (session.callValue fuel callee args).2.machine.scopes
      = session.machine.scopes := by
    rw [callValue_eq]
    exact ((touches_eval_call session.settings fuel).2 callee args ScopeTree.rootId).scopes_eq
      session.machine
  constructor
  · rw [hscopes]
    exact h.distinct
  · intro name hname
    rw [global?, hscopes] at hname
    exact h.words name hname

/-- A session that has run nothing but what was read from sources has words for names. -/
theorem Chronicle.wellNamed {settings : Settings} {programs : List Program} {stages : List Stage}
    (h : Chronicle settings programs stages session)
    (hsources : ∀ program ∈ programs, ∃ source, parseSource source = .ok program.tree) :
    session.WellNamed := by
  induction h with
  | new console units => exact wellNamed_new settings console units
  | load tree _ ih =>
    have hwell := ih fun program hmem => hsources program (List.mem_append_left _ hmem)
    exact ⟨hwell.distinct, hwell.words⟩
  | runProgram fuel hprogram _ ih =>
    obtain ⟨source, hparse⟩ := hsources _ hprogram
    exact (ih hsources).runProgram fuel (isWord_of_parseSource hparse)
  | callValue fuel _ _ _ ih => exact (ih hsources).callValue fuel _ _
  | console console _ ih => exact ⟨(ih hsources).distinct, (ih hsources).words⟩

end Session

/-! ## The order of lines -/

/-- Every character of a word continues a name. -/
theorem continuesName_of_isWord {cs : List Char} (h : isWord cs) : ∀ c ∈ cs, continuesName c := by
  cases cs with
  | nil => exact fun _ hmem => absurd hmem List.not_mem_nil
  | cons c cs =>
    rw [isWord, Bool.and_eq_true] at h
    refine List.forall_mem_cons.2 ⟨?_, List.all_eq_true.1 h.2⟩
    rw [continuesName, Char.isAlphanum, h.1]
    rfl

/-- The characters of a name are above the blank, and have one byte. -/
theorem bounds_of_continuesName {c : Char} (h : continuesName c) : ' ' < c ∧ c.utf8Size = 1 := by
  rw [Char.lt_def, Char.utf8Size_eq_one_iff, UInt32.lt_iff_toNat_lt, UInt32.le_iff_toNat_le]
  simp only [continuesName, Char.isAlphanum, Char.isAlpha, Char.isUpper, Char.isLower, Char.isDigit,
    Bool.or_eq_true,
    Bool.and_eq_true, decide_eq_true_eq, beq_iff_eq, UInt32.le_iff_toNat_le, ge_iff_le,
    Char.reduceVal, UInt32.reduceToNat] at h ⊢
  rcases h with h | rfl
  · omega
  · decide

/-- Words stay in order if a blank is put behind them, whatever comes after it. -/
theorem append_blank_lt {x y : List Char} (hy : ∀ c ∈ y, ' ' < c) (h : x < y) (s t : List Char) :
    x ++ ' ' :: s < y ++ ' ' :: t := by
  have hlex : List.Lex (· < ·) x y := h
  induction hlex with
  | nil => exact List.Lex.rel (hy _ List.mem_cons_self)
  | rel hlt => exact List.Lex.rel hlt
  | cons hrest ih => exact List.Lex.cons (ih (fun c hc => hy c (List.mem_cons_of_mem _ hc)) hrest)

/-- Characters of one byte have the order of their bytes. -/
theorem toUInt8_lt {c d : Char} (hc : c.utf8Size = 1) (hd : d.utf8Size = 1) (h : c < d) :
    c.val.toUInt8 < d.val.toUInt8 := by
  rw [Char.utf8Size_eq_one_iff, UInt32.le_iff_toNat_le] at hc hd
  rw [Char.lt_def, UInt32.lt_iff_toNat_lt] at h
  have hbound : (127 : UInt32).toNat = 127 := rfl
  rw [UInt8.lt_iff_toNat_lt, UInt32.toNat_toUInt8, UInt32.toNat_toUInt8]
  omega

/-- Texts of such characters have it too. -/
theorem Console.encode_lt {x y : String} (hx : ∀ c ∈ x.toList, c.utf8Size = 1)
    (hy : ∀ c ∈ y.toList, c.utf8Size = 1) (h : x < y) : encode x < encode y := by
  have hlex : List.Lex (· < ·) x.toList y.toList := String.lt_iff_toList_lt.1 h
  unfold encode
  generalize x.toList = cs at hx hlex
  generalize y.toList = ds at hy hlex
  induction hlex with
  | @nil d ds =>
    rw [List.flatMap_cons, String.utf8EncodeChar_eq_singleton (hy d List.mem_cons_self)]
    exact List.Lex.nil
  | @rel c cs d ds hlt =>
    have hc : c.utf8Size = 1 := hx c List.mem_cons_self
    have hd : d.utf8Size = 1 := hy d List.mem_cons_self
    rw [List.flatMap_cons, List.flatMap_cons, String.utf8EncodeChar_eq_singleton hc,
      String.utf8EncodeChar_eq_singleton hd]
    exact List.Lex.rel (toUInt8_lt hc hd hlt)
  | @cons c cs ds hrest ih =>
    rw [List.flatMap_cons, List.flatMap_cons,
      String.utf8EncodeChar_eq_singleton (hx c List.mem_cons_self)]
    exact List.Lex.cons (ih (List.forall_mem_cons.1 hx).2 (List.forall_mem_cons.1 hy).2)

namespace Session

variable {session : Session}

/-- The lines of two variables are in the order of their names. -/
theorem variableLine_lt {x y : String × Value} (hy : isWord y.1.toList) (h : x.1 < y.1) :
    variableLine x < variableLine y := by
  rw [String.lt_iff_toList_lt] at h ⊢
  simp only [variableLine, String.toList_append, List.append_assoc]
  exact append_blank_lt
    (fun c hc => (bounds_of_continuesName (continuesName_of_isWord hy c hc)).1) h _ _

/-- The variables that are listed are the global ones that hold no built-in function. -/
theorem WellNamed.mem_userGlobals (h : session.WellNamed) {name : String} {value : Value} :
    (name, value) ∈ session.userGlobals.entries ↔ session.global? name = some value ∧
      isBuiltin value = false := by
  rw [userGlobals, List.mem_filter, global?_eq, h.distinct.get?_eq_some_iff, Bool.not_eq_true']

/-- No variable is listed twice. -/
theorem WellNamed.distinct_userGlobals (h : session.WellNamed) : session.userGlobals.Distinct :=
  h.distinct.sublist (List.filter_sublist.map _)

/-- The variables that are listed have words for names. -/
theorem WellNamed.isWord_of_mem (h : session.WellNamed) {entry : String × Value}
    (hentry : entry ∈ session.userGlobals.entries) : isWord entry.1.toList := by
  refine h.words entry.1 ?_
  rw [(h.mem_userGlobals.1 hentry).1]
  exact Option.some_ne_none _

/-- The lines are in order if and only if the names are, so it makes no difference which of them are
sorted. -/
theorem WellNamed.listing_eq (h : session.WellNamed) :
    session.listing = String.join (session.userGlobals.sorted.map variableLine) := by
  rw [listing, Bindings.sorted, List.map_mergeSort]
  intro x hx y hy
  rw [decide_eq_decide]
  rcases lt_trichotomy x.1 y.1 with hlt | heq | hgt
  · exact iff_of_true hlt.le (variableLine_lt (h.isWord_of_mem hy) hlt).le
  · rw [List.inj_on_of_nodup_map h.distinct_userGlobals hx hy heq]
    exact iff_of_true le_rfl le_rfl
  · exact iff_of_false hgt.not_ge (variableLine_lt (h.isWord_of_mem hx) hgt).not_ge

end Session

/-- The listing at the prompt is in order of the names. A session that has run nothing but what was
read from sources lists just its global variables that do not hold built-in functions, one line
each. Although the lines are sorted as a whole, with values that can be any text, they are in the
order of the bytes of the names, which strictly increase. -/
theorem listing_is_in_order_of_names {settings : Settings} {programs : List Program}
    {stages : List Stage}
    {session : Session} (h : Session.Chronicle settings programs stages session)
    (hsources : ∀ program ∈ programs, ∃ source, parseSource source = .ok program.tree) :
    Prompt.answer? session (.ofLine ":vars")
        = some (String.join (session.userGlobals.sorted.map Session.variableLine)) ∧
      session.userGlobals.sorted.Pairwise (fun x y => Console.encode x.1 < Console.encode y.1) ∧
      (∀ name value, (name, value) ∈ session.userGlobals.sorted ↔
        session.global? name = some value ∧ Session.isBuiltin value = false) ∧
      ∀ entry ∈ session.userGlobals.sorted, isWord entry.1.toList := by
  have hwell := h.wellNamed hsources
  have hword : ∀ entry ∈ session.userGlobals.sorted, isWord entry.1.toList :=
    fun entry hentry => hwell.isWord_of_mem (Bindings.mem_sorted.1 hentry)
  have honeByte : ∀ entry ∈ session.userGlobals.sorted, ∀ c ∈ entry.1.toList, c.utf8Size = 1 :=
    fun entry hentry c hc =>
      (bounds_of_continuesName (continuesName_of_isWord (hword entry hentry) c hc)).2
  refine ⟨?_, ?_, fun name value => ?_, hword⟩
  · rw [← hwell.listing_eq]
    rfl
  · refine hwell.distinct_userGlobals.pairwise_sorted.imp_of_mem fun hx hy hlt => ?_
    exact Console.encode_lt (honeByte _ hx) (honeByte _ hy) hlt
  · rw [Bindings.mem_sorted, hwell.mem_userGlobals]

/-- One name is the start of another one, and its value looks like the other line with a value that
would come first. The line of the shorter name comes first. What holds a built-in function is left
out. -/
theorem listing_is_in_order_of_names_with_common_start :
    let source := "set true=set false=set ab=null set a=\"\\nab = (\" set b=print"
    let session := ((Session.new .default (.new [] none) 0).run 10 source).2
    (∃ programs stages, Session.Chronicle .default programs stages session ∧
        ∀ program ∈ programs, ∃ source, parseSource source = .ok program.tree) ∧
      Prompt.answer? session (.ofLine ":vars")
        = some "a = \nab = (\nab = (null)\nfalse = (null)\ntrue = (null)\n" ∧
      session.userGlobals.sorted.Pairwise (fun x y => Console.encode x.1 < Console.encode y.1) ∧
      ∀ name value, (name, value) ∈ session.userGlobals.sorted ↔
        session.global? name = some value ∧ Session.isBuiltin value = false := by
  intro source session
  let place (start stop : Nat) : Span := ⟨⟨start, 1, start⟩, ⟨stop, 1, stop⟩⟩
  let tree : Node :=
    ⟨.block [⟨.assign "true" ⟨.assign "false" ⟨.assign "ab" ⟨.null, place 26 30⟩, place 19 30⟩,
      place 9 30⟩, place 0 30⟩, ⟨.assign "a" ⟨.text "\nab = (", place 37 47⟩, place 31 47⟩,
      ⟨.assign "b" ⟨.var "print", place 54 59⟩, place 48 59⟩], place 0 59⟩
  have hparse : parseSource source = .ok tree := by cbv
  have hentries : session.userGlobals.entries
      = [("true", .null), ("false", .null), ("ab", .null), ("a", .text "\nab = (")] := by
    simp only [session]
    rw [Session.run_of_ok hparse]
    with_unfolding_all rfl
  have hsorted : session.userGlobals.sorted
      = [("a", .text "\nab = ("), ("ab", .null), ("false", .null), ("true", .null)] := by
    rw [Bindings.sorted, hentries]
    simp [List.mergeSort]
  have hnew : Session.Chronicle .default [] [] (.new .default (.new [] none) 0) := .new _ _
  have hchronicle := hnew.run 10 hparse
  have hsources : ∀ program ∈ [((Session.new .default (.new [] none) 0).load tree).1],
      ∃ source, parseSource source = .ok program.tree :=
        List.forall_mem_singleton.2 ⟨source, hparse⟩
  obtain ⟨hanswer, horder, hmem, -⟩ := listing_is_in_order_of_names hchronicle hsources
  refine ⟨⟨_, _, hchronicle, hsources⟩, ?_, horder, hmem⟩
  rw [hanswer, hsorted]
  simp only [List.map_cons, List.map_nil, Session.variableLine, Value.display]
  decide +kernel

end Script
