import Script.Proofs.Machine.Raising

/-!
# What a stage is determined by

`Inside` lists the stages that a stage comes to. The list is complete: what becomes of a stage is
determined by what becomes of the stages inside of it. To say so, `evalNode` and `callValue` are
given two other functions in place of `eval` and `call`. If these do the same at all stages inside,
whatever they do elsewhere, then the result is the same (`evalNode_of_agreesAt` and
`callValue_of_agreesAt`).
-/

namespace Script

section

variable {ε α β : Type} {x x' : EStateM ε Machine α} {f f' : α → EStateM ε Machine β} {m : Machine}

/-- A sequence is the same if its first part is, and its second part from where the first one has
come. -/
theorem run_bind_congr (hx : x m = x' m) (hf : ∀ a m₁, x' m = .ok a m₁ → f a m₁ = f' a m₁) :
    (x >>= f) m = (x' >>= f') m := by
  cases hrun : x' m with
  | ok a m₁ => rw [run_bind_of_ok (hx.trans hrun), run_bind_of_ok hrun, hf a m₁ hrun]
  | error e m₁ => rw [run_bind_of_error (hx.trans hrun), run_bind_of_error hrun]

end

/-- Two loops over the items of a list are the same if their steps are, for each item from where the
items before it have come. -/
theorem Folds.congr {ε α β γ σ : Type} {loop loop' : σ → List α → EStateM ε Machine β}
    {step step' : σ → α → EStateM ε Machine γ} {next : σ → γ → σ} {result : σ → β}
    (h : Folds loop step next result) (h' : Folds loop' step' next result) {xs : List α} {s : σ}
    {m : Machine}
    (hstep : ∀ before x after s' m₁, xs = before ++ x :: after →
      loop' s before m = .ok (result s') m₁ → step s' x m₁ = step' s' x m₁) :
    loop s xs m = loop' s xs m := by
  induction xs generalizing s m with
  | nil => rw [h.nil, h'.nil]
  | cons x xs ih =>
    rw [h.cons, h'.cons]
    apply run_bind_congr
    · apply hstep [] x xs s m rfl
      rw [h'.nil]
      rfl
    · intro r m₁ hr
      apply ih
      intro before y after s' m₂ hxs hbefore
      apply hstep (x :: before) y after s' m₂ (congrArg (x :: ·) hxs)
      rw [h'.cons, run_bind_of_ok hr, hbefore]

section

variable {settings : Settings} {k : Nat} {site : Site} {scope : ScopeId} {m : Machine}
variable {ev : Node → Site → ScopeId → Eval Value} {cl : Value → List Value → ScopeId → Call Value}

/-- At this stage, two functions do what `eval` and `call` do. -/
def AgreesAt (settings : Settings) (ev : Node → Site → ScopeId → Eval Value)
    (cl : Value → List Value → ScopeId → Call Value) : Stage → Prop
  | .node fuel node site scope m => ev node site scope m = eval settings fuel node site scope m
  | .call fuel callee args scope m =>
    cl callee args scope m = call settings fuel callee args scope m

/-! ## Nodes and calls -/

/-- A plan is carried out with the same result if all stages that it meets have the same. -/
theorem Plan.run_of_agreesAt {p : Plan}
    (h : ∀ surroundings t, p.Meets settings k site scope m (.stage surroundings t) →
      AgreesAt settings ev cl t) :
    p.run ev cl site scope m = p.run (eval settings k) (Script.call settings k) site scope m := by
  induction p generalizing m with
  | done | stop => rfl
  | part position node next ih =>
    -- What a plan meets after a part is met by the rest of it, so the induction goes on from there.
    apply run_bind_congr (h [] _ (.inl rfl))
    exact fun v m₁ hnode => ih v fun surroundings t ht => h surroundings t (.inr ⟨v, m₁, hnode, ht⟩)
  | round position node next ih =>
    have hnode : ev node (site.child position) scope m
        = eval settings k node (site.child position) scope m := h [] _ (.inl rfl)
    apply run_bind_congr
    · rw [Eval.iteration, Eval.iteration, hnode]
    · exact fun goesOn m₁ hround => ih goesOn fun surroundings t ht =>
        h surroundings t (.inr ⟨goesOn, m₁, hround, ht⟩)
  | look name next ih => exact run_bind_congr rfl fun _ _ hlook => by cases hlook; exact ih _ h
  | define name value next ih =>
    exact run_bind_congr rfl fun _ _ hdefine => by cases hdefine; exact ih h
  | unbinding name body ih =>
    have hbody := ih fun surroundings t ht => h (surroundings ++ [.loop scope name]) t ⟨_, ht, rfl⟩
    rw [run, run, Eval.finallyScopes, Eval.finallyScopes, hbody]
  | call callee args span =>
    have hcall : cl callee args scope m = Script.call settings k callee args scope m := h _ _ rfl
    rw [run, run, Eval.ofCall, Eval.ofCall, hcall]

/-- A node is evaluated to the same if all that it comes to is. -/
theorem evalNode_of_agreesAt {node : Node}
    (h : ∀ surroundings t, Inside settings (.node (k + 1) node site scope m) surroundings t →
      AgreesAt settings ev cl t) :
    evalNode settings k ev cl node site scope m = eval settings (k + 1) node site scope m := by
  rw [eval_succ, evalNode_eq_run, evalNode_eq_run]
  refine Plan.run_of_agreesAt fun surroundings t hmeets => ?_
  cases Stage.meets_node_iff.mpr hmeets with
  | inside hinside => exact h surroundings t hinside

/-- A built-in function that calls none of its arguments does not depend on how calls are made. -/
theorem run_of_not_callbackArity? {b : Builtin} (hb : b.callbackArity? = none) (args : List Value)
    (caller : ScopeId) (call call' : Value → List Value → ScopeId → Call Value) :
    b.run call args caller = b.run call' args caller := by
  cases b with
  | map | reduce => cases hb
  | _ => rfl

/-- `map` has the same result if all callbacks that it comes to do. -/
theorem map_congr {items : List Value} {f : Value} (hf : f.isCallable)
    (h : ∀ surroundings t, Inside settings (.call (k + 1) (.builtin .map) [.list items, f] scope m)
      surroundings t → AgreesAt settings ev cl t) :
    Builtin.map.run cl [.list items, f] scope m
      = Builtin.map.run (call settings k) [.list items, f] scope m := by
  rw [Builtin.run, Builtin.run, mapCall_of_isCallable hf, mapCall_of_isCallable hf, Call.inChild,
    Call.inChild]
  have hitems : Builtin.mapFrom cl f m.scopes.size [] items
        { m with scopes := m.scopes.child scope .empty }
      = Builtin.mapFrom (call settings k) f m.scopes.size [] items
        { m with scopes := m.scopes.child scope .empty } := by
    apply (folds_mapFrom cl _ f).congr (folds_mapFrom (call settings k) _ f)
    intro before item after s m₁ hitems hbefore
    exact h _ _ (.mapped hf hitems hbefore)
  rw [hitems]

/-- `reduce` has the same result if all callbacks that it comes to do. -/
theorem reduce_congr {items : List Value} {f initial : Value} (hf : f.isCallable)
    (h : ∀ surroundings t,
      Inside settings (.call (k + 1) (.builtin .reduce) [.list items, f, initial] scope m)
      surroundings t → AgreesAt settings ev cl t) :
    Builtin.reduce.run cl [.list items, f, initial] scope m
      = Builtin.reduce.run (call settings k) [.list items, f, initial] scope m := by
  rw [Builtin.run, Builtin.run, reduceCall_of_isCallable hf, reduceCall_of_isCallable hf,
    Call.inChild, Call.inChild]
  have hitems : Builtin.reduceFrom cl f m.scopes.size initial items
        { m with scopes := m.scopes.child scope .empty }
      = Builtin.reduceFrom (call settings k) f m.scopes.size initial items
        { m with scopes := m.scopes.child scope .empty } := by
    apply (folds_reduceFrom cl _ f).congr (folds_reduceFrom (call settings k) _ f)
    intro before item after s m₁ hitems hbefore
    exact h _ _ (.reduced hf hitems hbefore)
  rw [hitems]

/-- A call has the same result if all that it comes to does. -/
theorem callValue_of_agreesAt {callee : Value} {args : List Value}
    (h : ∀ surroundings t, Inside settings (.call (k + 1) callee args scope m) surroundings t →
      AgreesAt settings ev cl t) :
    callValue settings ev cl callee args scope m = call settings (k + 1) callee args scope m := by
  rw [call_succ]
  cases callee with
  | number | text | list | null => rfl
  | function site definition =>
    rw [callValue, callValue, callFunction, callFunction]
    by_cases hargs : args.length = definition.params.length
    · rw [if_neg (not_not_intro hargs), if_neg (not_not_intro hargs)]
      by_cases hdepth : settings.maxCallDepth ≤ m.depth
      · rw [if_pos hdepth, if_pos hdepth]
      · have hbody := h _ _ (.body hargs (Nat.lt_of_not_le hdepth))
        have hev : ev definition.body _ _ _ = _ := hbody
        rw [if_neg hdepth, if_neg hdepth]
        simp only [Call.inChild, Call.deeper, Call.ofBody, hev]
    · rw [if_pos hargs, if_pos hargs]
  | builtin b =>
    rw [callValue, callValue]
    cases hb : b.callbackArity? with
    | none => rw [run_of_not_callbackArity? hb args scope cl (call settings k)]
    | some n =>
      -- Only with a list and a function do the two functions call back.
      rcases refuses_or_wanted hb m args with ⟨fault, hrefuses⟩ | ⟨items, f, rest, rfl, hn, hf⟩
      · rw [hrefuses.run_eq, hrefuses.run_eq]
      · cases b with
        | map =>
          cases hb
          obtain rfl : rest = [] := List.eq_nil_of_length_eq_zero (by simpa using hn)
          exact map_congr hf h
        | reduce =>
          cases hb
          obtain ⟨initial, rfl⟩ : ∃ initial, rest = [initial] :=
            List.length_eq_one_iff.1 (by simpa using hn)
          exact reduce_congr hf h
        | _ => cases hb

end

end Script
