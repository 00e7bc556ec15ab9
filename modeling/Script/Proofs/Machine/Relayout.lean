import Script.Proofs.Machine.Alongside
import Script.Proofs.Machine.ControlFlow
import Script.Proofs.Parser.Layouts

/-!
# Layout never changes meaning

Spans end up in error messages and nowhere else. Two sources that differ only in what stands between
their tokens are read as trees that are the same when bare, and such trees correspond in the sense
of a `Likeness` (`upToSpans`): they say the same, and their nodes have the same places in them. So
the two runs go side by side, and a session does so too after any number of them.
-/

namespace Script

/-- Runs of trees that are the same up to their spans. -/
def upToSpans : Likeness where
  nodes node node' := node.bare = node'.bare
  sites := Eq
  spans _ _ := True
  reads _ := True
  form_alike h := Form.alike_of_bare (Node.bare_eq_iff.mp h)
  span_alike _ := trivial
  child_alike h position := h ▸ rfl
  sites_iff hs ht := by rw [hs, ht]

/-! ## Values and states -/

/-- The value with every span in it forgotten. -/
def Value.bare : Value → Value
  | .list items => .list (items.map fun item => item.bare)
  | .function site definition => .function site definition.bare
  | .number x => .number x
  | .text s => .text s
  | .null => .null
  | .builtin b => .builtin b

mutual

/-- Values of such runs are the same when bare. -/
theorem Value.Alike.bare_eq : {v w : Value} → v.Alike upToSpans w → v.bare = w.bare
  | .list items, _, .list hitems => by rw [Value.bare, Value.bare, map_bare_eq hitems]
  | _, _, .function hsite hdefinition => by
    rw [Value.bare, Value.bare, show _ = _ from hsite, Definition.alike_iff_bare.mp hdefinition]
  | _, _, .number _ | _, _, .text _ | _, _, .null | _, _, .builtin _ => rfl

/-- Items that are alike up to spans are the same without them. -/
theorem map_bare_eq :
    {items items' : List Value} → List.Forall₂ (Value.Alike upToSpans) items items' →
    items.map Value.bare = items'.map Value.bare
  | [], _, .nil => rfl
  | item :: items, _, .cons hitem hitems => by
    rw [List.map_cons, List.map_cons, hitem.bare_eq, map_bare_eq hitems]

end

section

variable {L : Likeness} {P : Site → Definition → Prop}

/-- The functions that `P` holds of are like themselves. -/
def Likeness.Fixes (L : Likeness) (P : Site → Definition → Prop) : Prop :=
  ∀ site definition, P site definition → L.sites site site ∧ definition.Alike L.nodes definition

mutual

/-- A value is like itself if the functions in it are. -/
theorem Likeness.Fixes.value (h : L.Fixes P) : {v : Value} → v.Admits P → v.Alike L v
  | .list _, hitems => .list (h.values hitems)
  | .function site definition, hfunction =>
    .function (h site definition hfunction).1 (h site definition hfunction).2
  | .number x, _ => .number x
  | .text s, _ => .text s
  | .null, _ => .null
  | .builtin b, _ => .builtin b

/-- Items that are admitted are like themselves. -/
theorem Likeness.Fixes.values (h : L.Fixes P) : {items : List Value} → AllAdmit P items →
    List.Forall₂ (Value.Alike L) items items
  | [], _ => .nil
  | _ :: _, ⟨hitem, hitems⟩ => .cons (h.value hitem) (h.values hitems)

end

/-- A machine is like itself if the functions that its variables hold are. -/
theorem Likeness.Fixes.machine (h : L.Fixes P) {m : Machine}
    (hm : ∀ id, (m.scopes.bindings id).Admits P) : m.Alike L m := by
  refine ⟨List.forall₂_same.mpr fun scope hscope => ⟨rfl, fun name _ => ?_⟩, rfl, rfl⟩
  obtain ⟨id, hid⟩ := List.getElem?_of_mem hscope
  have hbindings : m.scopes.bindings id = scope.bindings := by
    rw [ScopeTree.bindings, ← Array.getElem?_toList, hid]
    rfl
  cases hvalue : scope.bindings.get? name with
  | none => exact .none
  | some value => exact .some (h.value (hm id name value (hbindings ▸ hvalue)))

end

theorem upToSpans_fixes : upToSpans.Fixes fun _ _ => True :=
  fun _ _ _ => ⟨rfl, Definition.alike_iff_bare.mpr rfl⟩

/-- A state is like itself up to spans. -/
theorem Machine.alike_refl (m : Machine) : m.Alike upToSpans m :=
  upToSpans_fixes.machine fun _ _ value _ => value.admits_of_forall fun _ _ => trivial

/-! ## Sessions -/

namespace Session

/-- Sessions that are the same up to the spans in the functions of their variables. -/
structure SameUpToSpans (session session' : Session) : Prop where
  settings : session.settings = session'.settings
  machine : session.machine.Alike upToSpans session'.machine
  units : session.units = session'.units

/-- Inputs that are the same, or sources that consist of the same tokens. -/
inductive Input.Relaid : Input → Input → Prop
  | same (input : Input) : Relaid input input
  | source {text text' : String} {lexemes lexemes' : List Lexeme} (h : tokenize text = .ok lexemes)
      (h' : tokenize text' = .ok lexemes')
      (htokens : lexemes.map Lexeme.token = lexemes'.map Lexeme.token) :
      Relaid (.source text) (.source text')

/-- Such inputs, with the same amount of fuel. -/
structure RelaidRun (run run' : Nat × Input) : Prop where
  fuel : run.1 = run'.1
  input : run.2.Relaid run'.2

end Session

/-- Runs of two layouts that ended alike: with the same value up to the spans in functions, in
errors with the same fault, or without a program to run, the same lexeme of both layouts being
blamed for the same fault. -/
inductive Outcome.SameIn (lexemes lexemes' : List Lexeme) : Outcome → Outcome → Prop
  | value {v v' : Value} (h : v.bare = v'.bare) : SameIn lexemes lexemes' (.value v) (.value v')
  | failed {e e' : RuntimeError} (h : e.fault = e'.fault) :
      SameIn lexemes lexemes' (.error (.failed e)) (.error (.failed e'))
  | refused (fault : SyntaxFault) {i : Nat} {lexeme lexeme' : Lexeme}
      (h : lexemes[i]? = some lexeme) (h' : lexemes'[i]? = some lexeme') :
      SameIn lexemes lexemes' (.error (.refused ⟨fault, lexeme.span⟩))
        (.error (.refused ⟨fault, lexeme'.span⟩))
  | exhausted : SameIn lexemes lexemes' .exhausted .exhausted

/-- Outcomes that are alike up to spans are the same in any two layouts. -/
theorem Outcome.Alike.sameIn {outcome outcome' : Outcome} (h : outcome.Alike upToSpans outcome')
    (lexemes lexemes' : List Lexeme) : outcome.SameIn lexemes lexemes' outcome' := by
  cases h with
  | value hvalue => exact .value hvalue.bare_eq
  | failed herror => exact .failed herror.fault
  | exhausted => exact .exhausted

namespace Session

namespace SameUpToSpans

variable {session session' : Session}

theorem refl (session : Session) : session.SameUpToSpans session :=
  ⟨rfl, session.machine.alike_refl, rfl⟩

/-- Programs that are the same when bare run alike. -/
theorem runProgram (h : session.SameUpToSpans session') (fuel : Nat) (unit : Nat)
    {tree tree' : Node} (htree : tree.bare = tree'.bare) :
    (session.runProgram fuel ⟨unit, tree⟩).1.Alike upToSpans
      (session'.runProgram fuel ⟨unit, tree'⟩).1 ∧
      (session.runProgram fuel ⟨unit, tree⟩).2.SameUpToSpans
        (session'.runProgram fuel ⟨unit, tree'⟩).2 := by
  have hrun := alike_runProgram h.settings h.machine
    (show upToSpans.nodes (Program.mk unit tree).tree (Program.mk unit tree').tree from htree)
    (show upToSpans.sites (.root unit) (.root unit) from rfl) fuel
  refine ⟨hrun.1, ?_⟩
  rw [runProgram_eq session, runProgram_eq session']
  exact ⟨h.settings, hrun.2, h.units⟩

/-- Trees that are the same when bare are given the same number and run alike. -/
theorem runLoaded (h : session.SameUpToSpans session') (fuel : Nat) {tree tree' : Node}
    (htree : tree.bare = tree'.bare) :
    ((session.load tree).2.runProgram fuel (session.load tree).1).1.Alike upToSpans
        ((session'.load tree').2.runProgram fuel (session'.load tree').1).1 ∧
      ((session.load tree).2.runProgram fuel (session.load tree).1).2.SameUpToSpans
        ((session'.load tree').2.runProgram fuel (session'.load tree').1).2 := by
  have hloaded : (session.load tree).2.SameUpToSpans (session'.load tree').2 :=
    ⟨h.settings, h.machine, congrArg (· + 1) h.units⟩
  have hprogram : (session'.load tree').1 = ⟨session.units, tree'⟩ := by rw [load, h.units]
  rw [hprogram]
  exact hloaded.runProgram fuel session.units htree

/-- Sources that are read alike run alike. -/
theorem run (h : session.SameUpToSpans session') (fuel : Nat) {source source' : String}
    {lexemes lexemes' : List Lexeme}
    (hparse : SameParse lexemes lexemes' (parseSource source) (parseSource source')) :
    (session.run fuel source).1.SameIn lexemes lexemes' (session'.run fuel source').1 ∧
      (session.run fuel source).2.SameUpToSpans (session'.run fuel source').2 := by
  unfold Session.run
  generalize parseSource source = r at hparse ⊢
  generalize parseSource source' = r' at hparse ⊢
  cases hparse with
  | error fault hlexeme hlexeme' => exact ⟨.refused fault hlexeme hlexeme', h⟩
  | ok htree =>
    have hrun := h.runLoaded fuel htree
    exact ⟨hrun.1.sameIn lexemes lexemes', hrun.2⟩

/-- Sessions that are the same up to spans stay so when they are fed one input in two layouts. -/
theorem feed (h : session.SameUpToSpans session') (fuel : Nat) {input input' : Input}
    (hinput : input.Relaid input') :
    (session.feed fuel input).2.SameUpToSpans (session'.feed fuel input').2 := by
  cases hinput with
  | source hlexemes hlexemes' htokens =>
    exact (h.run fuel (sameParse_of_tokens hlexemes hlexemes' htokens)).2
  | same =>
    cases input with
    | program program => exact (h.runProgram fuel program.unit rfl).2
    | source text =>
      simp only [Session.feed]
      cases hparse : parseSource text with
      | error e =>
        rw [run_of_error hparse, run_of_error hparse]
        exact h
      | ok tree =>
        rw [run_of_ok hparse, run_of_ok hparse]
        exact (h.runLoaded fuel rfl).2

/-- Sessions stay the same up to spans while they run inputs in different layouts. -/
theorem after (h : session.SameUpToSpans session') {runs runs' : List (Nat × Input)}
    (hruns : List.Forall₂ RelaidRun runs runs') :
    (session.after runs).SameUpToSpans (session'.after runs') := by
  induction hruns generalizing session session' with
  | nil => exact h
  | @cons run run' _ _ hrun _ ih =>
    obtain ⟨fuel, input⟩ := run
    obtain ⟨fuel', input'⟩ := run'
    obtain ⟨rfl, hinput⟩ := hrun
    exact ih (h.feed fuel hinput)

/-- Global variables have the same values up to spans. -/
theorem global?_eq (h : session.SameUpToSpans session') (name : String) :
    (session.global? name).map Value.bare = (session'.global? name).map Value.bare := by
  have hvalue := h.machine.scopes.get? ScopeTree.rootId (show upToSpans.reads name from trivial)
  unfold global?
  generalize session.machine.scopes.get? _ name = found at hvalue ⊢
  generalize session'.machine.scopes.get? _ name = found' at hvalue ⊢
  cases hvalue with
  | none => rfl
  | some hvalue => exact congrArg some hvalue.bare_eq

end SameUpToSpans

end Session

/-- Layout never changes meaning. Take two sources that consist of the same tokens, and run them in
sessions that have so far run the same inputs, or other layouts of them. Then the same token of both
is blamed for the same syntax fault, or both come to the same value up to the spans in functions, or
to an error with the same fault, or neither comes to an end with its fuel. The consoles are the same
in the end, both what was written and what is left to read, and so are all global variables up to
the spans in functions. -/
theorem layout_never_changes_meaning (session : Session)
    {before before' : List (Nat × Session.Input)}
    (hbefore : List.Forall₂ Session.RelaidRun before before') (fuel : Nat)
    {source source' : String} {lexemes lexemes' : List Lexeme}
    (hlexemes : tokenize source = .ok lexemes) (hlexemes' : tokenize source' = .ok lexemes')
    (htokens : lexemes.map Lexeme.token = lexemes'.map Lexeme.token) :
    let run := (session.after before).run fuel source
    let run' := (session.after before').run fuel source'
    run.1.SameIn lexemes lexemes' run'.1 ∧ run.2.machine.console = run'.2.machine.console ∧
      ∀ name, (run.2.global? name).map Value.bare = (run'.2.global? name).map Value.bare := by
  intro run run'
  have hstart : (session.after before).SameUpToSpans (session.after before') :=
    (Session.SameUpToSpans.refl session).after hbefore
  have hparse := sameParse_of_tokens hlexemes hlexemes' htokens
  obtain ⟨houtcome, hend⟩ := hstart.run fuel hparse
  exact ⟨houtcome, hend.machine.console, hend.global?_eq⟩

/-- A function that is defined on one line in the one session and on two in the other, and then
called with itself, again on one line and on two. -/
theorem layout_never_changes_meaning_on_two_lines :
    let one (start stop : Nat) : Span := ⟨⟨start, 1, start⟩, ⟨stop, 1, stop⟩⟩
    let two (line start stop : Nat) : Span := ⟨⟨start, 2, start - line⟩, ⟨stop, 2, stop - line⟩⟩
    let definition : List Lexeme :=
      [⟨.keyword .fun, one 0 3⟩, ⟨.identifier "f", one 4 5⟩, ⟨.operator .openParen, one 5 6⟩,
        ⟨.identifier "x", one 6 7⟩, ⟨.operator .closeParen, one 7 8⟩, ⟨.operator .assign, one 9 10⟩,
        ⟨.identifier "x", one 11 12⟩, ⟨.eof, one 12 13⟩]
    let definition' : List Lexeme :=
      [⟨.keyword .fun, one 0 3⟩, ⟨.identifier "f", one 4 5⟩, ⟨.operator .openParen, one 6 7⟩,
        ⟨.identifier "x", one 7 8⟩, ⟨.operator .closeParen, one 8 9⟩,
        ⟨.operator .assign, two 10 10 11⟩, ⟨.identifier "x", two 10 12 13⟩, ⟨.eof, two 10 13 14⟩]
    let lexemes : List Lexeme :=
      [⟨.identifier "f", one 0 1⟩, ⟨.operator .openParen, one 1 2⟩, ⟨.identifier "f", one 2 3⟩,
        ⟨.operator .closeParen, one 3 4⟩, ⟨.eof, one 4 5⟩]
    let lexemes' : List Lexeme :=
      [⟨.identifier "f", one 0 1⟩, ⟨.operator .openParen, one 2 3⟩, ⟨.identifier "f", two 4 4 5⟩,
        ⟨.operator .closeParen, two 4 5 6⟩, ⟨.eof, two 4 6 7⟩]
    let session := Session.new .default (.new [] none) 0
    let run := (session.after [(9, .source "fun f(x) = x")]).run 9 "f(f)"
    let run' := (session.after [(9, .source "fun f (x)\n= x")]).run 9 "f (\nf)"
    tokenize "fun f(x) = x" = .ok definition ∧ tokenize "fun f (x)\n= x" = .ok definition' ∧
      tokenize "f(f)" = .ok lexemes ∧ tokenize "f (\nf)" = .ok lexemes' ∧
      run.1.SameIn lexemes lexemes' run'.1 ∧ run.2.machine.console = run'.2.machine.console ∧
      ∀ name, (run.2.global? name).map Value.bare = (run'.2.global? name).map Value.bare := by
  intro one two definition definition' lexemes lexemes' session run run'
  have hdefinition : tokenize "fun f(x) = x" = .ok definition := by with_unfolding_all rfl
  have hdefinition' : tokenize "fun f (x)\n= x" = .ok definition' := by with_unfolding_all rfl
  have hlexemes : tokenize "f(f)" = .ok lexemes := by with_unfolding_all rfl
  have hlexemes' : tokenize "f (\nf)" = .ok lexemes' := by with_unfolding_all rfl
  have hbefore : List.Forall₂ Session.RelaidRun [(9, .source "fun f(x) = x")]
      [(9, .source "fun f (x)\n= x")] :=
    .cons ⟨rfl, .source hdefinition hdefinition' rfl⟩ .nil
  exact ⟨hdefinition, hdefinition', hlexemes, hlexemes',
    layout_never_changes_meaning session hbefore 9 hlexemes hlexemes' rfl⟩

end Script
