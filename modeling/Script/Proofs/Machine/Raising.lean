import Script.Proofs.Machine.Events

/-!
# Where errors come from

A stage that raises an error fails with it (`Fails.of_raises`), and a stage that fails either raises
the error itself or comes to a stage that fails (`raises_or_inside`). For nodes both were shown of
their plans, so that only calls are looked at here, with every built-in function. What is put
together from stages needs only these two facts and `Fails.of_inside`.
-/

namespace Script

/-! ## Raised errors -/

section

variable {settings : Settings} {k : Nat} {site : Site} {scope : ScopeId} {m m₁ m' : Machine}

/-- A console that cannot be written to is a fault. -/
theorem write_of_error {text : String} {fault : ConsoleFault}
    (h : m.console.write text = .error fault) :
    Call.write text m = .error (.error ⟨.console fault, none⟩) m := by
  rw [Call.write, h]

/-- What is written changes the console and nothing else. -/
theorem write_of_ok {text : String} {console : Console} (h : m.console.write text = .ok console) :
    Call.write text m = .ok () { m with console := console } := by
  rw [Call.write, h]

/-- A line that cannot be read is a fault, and may be gone all the same. -/
theorem readLine_of_error {fault : ConsoleFault} {console : Console}
    (h : m.console.readLine = (.error fault, console)) :
    Call.readLine m = .error (.error ⟨.console fault, none⟩) { m with console := console } := by
  rw [Call.readLine, h]

/-- `scan` shows its prompt and then reads a line. -/
theorem scanLine_of_ok {args : List Value} {prompt : String}
    (h : Builtin.scanPrompt args = .ok prompt) :
    Builtin.scanLine args = (do
      Call.write prompt
      return .text (← Call.readLine)) := by
  rw [Builtin.scanLine, h]
  rfl

/-- A built-in function that only computes leaves the machine alone. -/
theorem run_of_compute? {b : Builtin} {args : List Value} {result : Except Fault Value}
    (h : b.compute? args = some result) (call : Value → List Value → ScopeId → Call Value)
    (caller : ScopeId) : b.run call args caller = Call.ofExcept result := by
  cases b <;> cases h <;> rfl

/-- The two built-in functions that call one of their arguments look at their number, then at the
list, then at the function. -/
theorem run_of_callbackArity? {b : Builtin} {n : Nat} (hb : b.callbackArity? = some n)
    (call : Value → List Value → ScopeId → Call Value) (caller : ScopeId) (args : List Value) :
    (args.length ≠ n ∧ b.run call args caller = Call.raise (b.arityFault n args)) ∨
    ∃ v f rest, args = v :: f :: rest ∧ args.length = n ∧ ∃ next : List Value → Call Value,
      b.run call args caller = (do
        let items ← Call.ofExcept (Builtin.wantList b v)
        Call.ofExcept (Builtin.wantFunction b f)
        next items) := by
  cases b with
  | map =>
    cases hb
    match args with
    | [] | [_] | _ :: _ :: _ :: _ => exact .inl ⟨by simp, rfl⟩
    | [v, f] => exact .inr ⟨v, f, [], rfl, rfl, _, rfl⟩
  | reduce =>
    cases hb
    match args with
    | [] | [_] | [_, _] | _ :: _ :: _ :: _ :: _ => exact .inl ⟨by simp, rfl⟩
    | [v, f, initial] => exact .inr ⟨v, f, [initial], rfl, rfl, _, rfl⟩
  | _ => cases hb

/-- What a built-in function refuses, a call of it fails with. -/
theorem Builtin.Refuses.run_eq {b : Builtin} {args : List Value} {fault : Fault}
    (h : Builtin.Refuses m b args fault m') (call : Value → List Value → ScopeId → Call Value)
    (caller : ScopeId) : b.run call args caller m = .error (.error ⟨fault, none⟩) m' := by
  cases h with
  | computes h =>
    rw [run_of_compute? h]
    rfl
  | prints h => exact run_bind_of_error (write_of_error h)
  | printsLine h => exact run_bind_of_error (write_of_error h)
  | prompt h =>
    rw [Builtin.run, Builtin.scanLine, h]
    rfl
  | prompts hprompt h =>
    rw [Builtin.run, scanLine_of_ok hprompt]
    exact run_bind_of_error (write_of_error h)
  | reads hprompt hwrite h =>
    rw [Builtin.run, scanLine_of_ok hprompt]
    exact (run_bind_of_ok (write_of_ok hwrite)).trans (run_bind_of_error (readLine_of_error h))
  -- The rest are the refusals of `map` and `reduce`, in the order of their checks.
  | arity hb h =>
    rcases run_of_callbackArity? hb call caller args with ⟨-, hrun⟩ | ⟨_, _, _, -, hn, -⟩
    · rw [hrun]
      rfl
    · exact absurd hn h
  | list hb hn hv h =>
    rcases run_of_callbackArity? hb call caller args
      with ⟨hne, -⟩ | ⟨v, f, rest, rfl, -, next, hrun⟩
    · exact absurd hn hne
    · cases hv
      rw [hrun, h]
      rfl
  | function hb hn hv hlist hf h =>
    rcases run_of_callbackArity? hb call caller args
      with ⟨hne, -⟩ | ⟨v, f, rest, rfl, -, next, hrun⟩
    · exact absurd hn hne
    · cases hv
      cases hf
      rw [hrun, hlist, h]
      rfl

/-- What a stage raises, it fails with. -/
theorem Fails.of_raises {s : Stage} {e : RuntimeError} (h : Raises settings s e m') :
    Fails settings s (.error e) m' := by
  cases s with
  | node fuel node site scope m =>
    cases fuel with
    | zero => cases h
    | succ k =>
      rw [Fails, eval_succ, evalNode_eq_run]
      exact Plan.run_of_meets (Stage.meets_node_iff.mp (.raises h)) ⟨rfl, rfl⟩
  | call fuel callee args scope m =>
    cases h with
    | notCallable h =>
      rw [Fails, call_succ]
      cases callee with
      | function | builtin => cases h
      | number | text | list | null => rfl
    | arity h => rw [Fails, call_succ, callValue, callFunction, if_pos h, Call.raise]
    | depth hargs h =>
      rw [Fails, call_succ, callValue, callFunction, if_neg (not_not_intro hargs), if_pos h,
        Call.raise]
    | jump hargs hdepth hjump h =>
      rw [Fails, call_succ]
      rcases hjump with ⟨rfl, rfl⟩ | ⟨rfl, rfl⟩
      · exact callFunction_of_error hargs hdepth h (fun _ => Interrupt.noConfusion)
      · exact callFunction_of_error hargs hdepth h (fun _ => Interrupt.noConfusion)
    | builtin h =>
      rw [Fails, call_succ]
      exact h.run_eq _ _

end

/-! ## The origin of an error -/

section

variable {settings : Settings} {k : Nat} {site : Site} {scope : ScopeId} {span : Span}
    {e : RuntimeError}
variable {m m' : Machine}

/-- A stage raises this error, or it comes to a stage that fails. -/
def Traced (settings : Settings) (s : Stage) (e : RuntimeError) (m' : Machine) : Prop :=
  Raises settings s e m' ∨
    ∃ surroundings t e₁ m₁, Inside settings s surroundings t ∧ Fails settings t (.error e₁) m₁

/-- An error of a stage inside is traced to there. -/
theorem Traced.inside {s t : Stage} {surroundings : List Surrounding} {e₁ : RuntimeError}
    {m₁ : Machine}
    (hinside : Inside settings s surroundings t) (h : Fails settings t (.error e₁) m₁) :
    Traced settings s e m' :=
  .inr ⟨surroundings, t, e₁, m₁, hinside, h⟩

/-- A node fails with one of the events that its plan meets. -/
theorem traced_node {fuel : Nat} {node : Node}
    (h : eval settings fuel node site scope m = .error (.failing (.error e)) m') :
    Traced settings (.node fuel node site scope m) e m' := by
  cases fuel with
  | zero =>
    rw [eval_zero] at h
    cases h
  | succ k =>
    rw [eval_succ, evalNode_eq_run] at h
    obtain ⟨event, hmeets, hfails⟩ := Plan.exists_meets_of_run h
    cases Stage.meets_node_iff.mpr hmeets with
    | raises hraises =>
      obtain ⟨he, rfl⟩ := hfails
      cases he
      exact .inl hraises
    | inside hinside =>
      obtain ⟨f₁, m₁, ht, he, -⟩ := hfails
      cases f₁ with
      | error e₁ => exact .inside hinside ht
      | exhausted =>
        rw [Surrounding.passAll_exhausted] at he
        cases he

/-- The call of a function fails only when an interrupt leaves its body that is not a `return`. -/
theorem exists_of_callFunction_eq_error {definition : Definition} {args : List Value} {f : Failure}
    (hargs : args.length = definition.params.length) (hdepth : m.depth < settings.maxCallDepth)
    (h : callFunction settings (eval settings k) site definition args scope m = .error f m') :
    ∃ i m₁, eval settings k definition.body (site.child 0) m.scopes.size
      { m with
        scopes := m.scopes.child scope (.ofPairs definition.params args)
        depth := m.depth + 1 } = .error i m₁ ∧ ∀ v, i ≠ .returning v := by
  rw [callFunction, if_neg (not_not_intro hargs), if_neg (Nat.not_le_of_lt hdepth),
    Call.inChild] at h
  simp only [Call.deeper, Call.ofBody] at h
  cases hbody : eval settings k definition.body (site.child 0) m.scopes.size
      { m with
        scopes := m.scopes.child scope (.ofPairs definition.params args)
        depth := m.depth + 1 } with
  | ok v m₁ =>
    simp only [hbody] at h
    cases h
  | error i m₁ =>
    refine ⟨i, m₁, rfl, ?_⟩
    rintro v rfl
    simp only [hbody] at h
    cases h

/-- An error of a function is that of its body, or the function was not called for the number of its
arguments or for the depth of calls. -/
theorem traced_function {definition : Definition} {args : List Value}
    (h : callFunction settings (eval settings k) site definition args scope m
      = .error (.error e) m') :
    Traced settings (.call (k + 1) (.function site definition) args scope m) e m' := by
  by_cases hargs : args.length = definition.params.length
  · rcases Nat.lt_or_ge m.depth settings.maxCallDepth with hdepth | hdepth
    -- The body was run, and ended in something else than a `return`.
    · obtain ⟨i, m₁, hbody, hi⟩ := exists_of_callFunction_eq_error hargs hdepth h
      have hcall := h.symm.trans (callFunction_of_error hargs hdepth hbody hi)
      cases i with
      | returning v => exact absurd rfl (hi v)
      | breaking span =>
        cases hcall
        exact .inl (.jump hargs hdepth (.inl ⟨rfl, rfl⟩) hbody)
      | continuing span =>
        cases hcall
        exact .inl (.jump hargs hdepth (.inr ⟨rfl, rfl⟩) hbody)
      | failing failure =>
        cases failure with
        | exhausted => cases hcall
        | error e₁ => exact .inside (.body hargs hdepth) hbody
    · rw [callFunction, if_neg (not_not_intro hargs), if_pos hdepth] at h
      cases h
      exact .inl (.depth hargs hdepth)
  · rw [callFunction, if_pos hargs] at h
    cases h
    exact .inl (.arity hargs)

/-- An operation that fails leaves the machine alone. -/
theorem callOfExcept_eq_error {α : Type} {result : Except Fault α} {f : Failure}
    (h : Call.ofExcept result m = .error f m') :
    ∃ fault, result = .error fault ∧ f = .error ⟨fault, none⟩ ∧ m' = m := by
  cases result with
  | ok a => cases h
  | error fault =>
    cases h
    exact ⟨fault, rfl, rfl, rfl⟩

/-- A write that fails leaves the machine alone. -/
theorem write_eq_error {text : String} {f : Failure} (h : Call.write text m = .error f m') :
    ∃ fault, m.console.write text = .error fault ∧ f = .error ⟨.console fault, none⟩ ∧ m' = m := by
  cases hwrite : m.console.write text with
  | ok console =>
    rw [write_of_ok hwrite] at h
    cases h
  | error fault =>
    rw [write_of_error hwrite] at h
    cases h
    exact ⟨fault, rfl, rfl, rfl⟩

/-- Reading a line for `scan` fails with the prompt, with writing it, or with the line. -/
theorem refuses_of_scanLine {args : List Value}
    (h : Builtin.scanLine args m = .error (.error e) m') :
    ∃ fault, e = ⟨fault, none⟩ ∧ Builtin.Refuses m .scan args fault m' := by
  cases hprompt : Builtin.scanPrompt args with
  | error fault =>
    rw [Builtin.scanLine, hprompt] at h
    cases h
    exact ⟨fault, rfl, .prompt hprompt⟩
  | ok prompt =>
    rw [scanLine_of_ok hprompt] at h
    -- The prompt is fine, so it was to be written, and then a line to be read.
    rcases run_bind_eq_error h with hfails | ⟨_, m₁, hwrite, h⟩
    · obtain ⟨fault, hfault, hf, rfl⟩ := write_eq_error hfails
      cases hf
      exact ⟨_, rfl, .prompts hprompt hfault⟩
    · cases hconsole : m.console.write prompt with
      | error fault =>
        rw [write_of_error hconsole] at hwrite
        cases hwrite
      | ok console =>
        rw [write_of_ok hconsole] at hwrite
        cases hwrite
        rcases run_bind_eq_error h with hfails | ⟨line, m₂, -, hpure⟩
        · cases hline : console.readLine with
          | mk result console' =>
            rw [Call.readLine, hline] at hfails
            cases result with
            | ok line => cases hfails
            | error fault =>
              cases hfails
              exact ⟨_, rfl, .reads hprompt hconsole hline⟩
        · cases hpure

/-- What fails in a new scope fails in its body. -/
theorem inChild_eq_error {α : Type} {parent : ScopeId} {bindings : Bindings}
    {body : ScopeId → Call α}
    {f : Failure} (h : Call.inChild parent bindings body m = .error f m') :
    ∃ m₁, body m.scopes.size { m with scopes := m.scopes.child parent bindings } = .error f m₁ := by
  unfold Call.inChild at h
  simp only at h
  split at h
  · cases h
  · rename_i f' m₁ hbody
    cases h
    exact ⟨m₁, hbody⟩

/-- What `wantFunction` lets pass can be called. -/
theorem isCallable_of_wantFunction {b : Builtin} {f : Value}
    (h : Builtin.wantFunction b f = .ok ()) :
    f.isCallable := by
  unfold Builtin.wantFunction at h
  split at h
  · assumption
  · cases h

/-- What is wanted as a list is one. -/
theorem eq_list_of_wantList {b : Builtin} {v : Value} {items : List Value}
    (h : Builtin.wantList b v = .ok items) : v = .list items := by
  cases v with
  | list items' =>
    cases h
    rfl
  | number | text | null | function | builtin => cases h

/-- A function that calls one of its arguments refuses its arguments, or they are as it wants
them. -/
theorem refuses_or_wanted {b : Builtin} {n : Nat} (hb : b.callbackArity? = some n) (m : Machine)
    (args : List Value) :
    (∃ fault, Builtin.Refuses m b args fault m) ∨
      ∃ items f rest, args = .list items :: f :: rest ∧ args.length = n ∧ f.isCallable := by
  by_cases hn : args.length = n
  · obtain ⟨v, f, rest, rfl⟩ : ∃ v f rest, args = v :: f :: rest := by
      have hlength : 2 ≤ args.length := by
        cases b <;> cases hb <;> omega
      match args, hlength with
      | v :: f :: rest, _ => exact ⟨v, f, rest, rfl⟩
    cases hlist : Builtin.wantList b v with
    | error fault => exact .inl ⟨fault, .list hb hn rfl hlist⟩
    | ok items =>
      cases hfn : Builtin.wantFunction b f with
      | error fault => exact .inl ⟨fault, .function hb hn rfl hlist rfl hfn⟩
      | ok _ =>
        rw [eq_list_of_wantList hlist] at hn ⊢
        exact .inr ⟨items, f, rest, rfl, hn, isCallable_of_wantFunction hfn⟩
  · exact .inl ⟨_, .arity hb hn⟩

/-- A function with a callback refuses its arguments, or they are a list, a function and maybe
more. -/
theorem refuses_or_of_callbackArity? {b : Builtin} {n : Nat} (hb : b.callbackArity? = some n)
    {args : List Value} {caller : ScopeId}
    (h : b.run (call settings k) args caller m = .error (.error e) m') :
    (∃ fault, e = ⟨fault, none⟩ ∧ Builtin.Refuses m b args fault m') ∨
      ∃ items f rest, args = .list items :: f :: rest ∧ args.length = n ∧ f.isCallable := by
  rcases refuses_or_wanted hb m args with ⟨fault, hrefuses⟩ | hwanted
  · rw [hrefuses.run_eq] at h
    cases h
    exact .inl ⟨fault, rfl, hrefuses⟩
  · exact .inr hwanted

/-- An error of `map` is that of a callback, or `map` refuses its arguments. -/
theorem traced_map {args : List Value} {caller : ScopeId}
    (h : Builtin.map.run (call settings k) args caller m = .error (.error e) m') :
    Traced settings (.call (k + 1) (.builtin .map) args caller m) e m' := by
  rcases refuses_or_of_callbackArity? rfl h
    with ⟨fault, rfl, hrefuses⟩ | ⟨items, f, rest, rfl, hn, hf⟩
  · exact .inl (.builtin hrefuses)
  · obtain rfl : rest = [] := List.eq_nil_of_length_eq_zero (by simpa using hn)
    rw [Builtin.run, mapCall_of_isCallable hf] at h
    obtain ⟨m₁, hbody⟩ := inChild_eq_error h
    obtain ⟨before, item, after, s', m₂, rfl, hbefore, hitem⟩ :=
      (folds_mapFrom (call settings k) m.scopes.size f).exists_of_error hbody
    exact .inside (.mapped hf rfl hbefore) hitem

/-- An error of `reduce` is that of a callback, or `reduce` refuses its arguments. -/
theorem traced_reduce {args : List Value} {caller : ScopeId}
    (h : Builtin.reduce.run (call settings k) args caller m = .error (.error e) m') :
    Traced settings (.call (k + 1) (.builtin .reduce) args caller m) e m' := by
  rcases refuses_or_of_callbackArity? rfl h
    with ⟨fault, rfl, hrefuses⟩ | ⟨items, f, rest, rfl, hn, hf⟩
  · exact .inl (.builtin hrefuses)
  · obtain ⟨initial, rfl⟩ : ∃ initial, rest = [initial] :=
      List.length_eq_one_iff.1 (by simpa using hn)
    rw [Builtin.run, reduceCall_of_isCallable hf] at h
    obtain ⟨m₁, hbody⟩ := inChild_eq_error h
    obtain ⟨before, item, after, s', m₂, rfl, hbefore, hitem⟩ :=
      (folds_reduceFrom (call settings k) m.scopes.size f).exists_of_error hbody
    exact .inside (.reduced hf rfl hbefore) hitem

/-- An error of a built-in function is that of a callback, or the function refuses its arguments. -/
theorem traced_builtin {b : Builtin} {args : List Value} {caller : ScopeId}
    (h : b.run (call settings k) args caller m = .error (.error e) m') :
    Traced settings (.call (k + 1) (.builtin b) args caller m) e m' := by
  cases hcompute : b.compute? args with
  | some result =>
    rw [run_of_compute? hcompute] at h
    obtain ⟨fault, rfl, hf, rfl⟩ := callOfExcept_eq_error h
    cases hf
    exact .inl (.builtin (.computes hcompute))
  | none =>
    cases b with
    | print =>
      rcases run_bind_eq_error h with hwrite | ⟨_, m₁, -, hpure⟩
      · obtain ⟨fault, hfault, hf, rfl⟩ := write_eq_error hwrite
        cases hf
        exact .inl (.builtin (.prints hfault))
      · cases hpure
    | println =>
      rcases run_bind_eq_error h with hwrite | ⟨_, m₁, -, hpure⟩
      · obtain ⟨fault, hfault, hf, rfl⟩ := write_eq_error hwrite
        cases hf
        exact .inl (.builtin (.printsLine hfault))
      · cases hpure
    | scan =>
      obtain ⟨fault, rfl, hrefuses⟩ := refuses_of_scanLine h
      exact .inl (.builtin hrefuses)
    | map => exact traced_map h
    | reduce => exact traced_reduce h
    -- All others just compute.
    | _ => cases hcompute

/-- An error of a call is that of a stage inside of it, or the call raises it. -/
theorem traced_call {fuel : Nat} {callee : Value} {args : List Value}
    (h : call settings fuel callee args scope m = .error (.error e) m') :
    Traced settings (.call fuel callee args scope m) e m' := by
  cases fuel with
  | zero =>
    rw [call_zero] at h
    cases h
  | succ k =>
    rw [call_succ] at h
    cases callee with
    | function site definition => exact traced_function h
    | builtin b => exact traced_builtin h
    | number | text | list | null =>
      cases h
      exact .inl (.notCallable rfl)

/-- A stage that fails raises the error itself, or comes to a stage that fails. -/
theorem raises_or_inside {s : Stage} (h : Fails settings s (.error e) m') :
    Traced settings s e m' := by
  cases s with
  | node fuel node site scope m => exact traced_node h
  | call fuel callee args scope m => exact traced_call h

end

end Script
