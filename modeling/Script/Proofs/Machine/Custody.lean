import Script.Proofs.Machine.Determined
import Script.Proofs.Machine.Reachable
import Script.Proofs.Machine.Unwinding

/-!
# Functions pass from hand to hand

A run gets hold of functions in three ways only: it starts with some, it makes some from literals,
and operations, variables, arguments and results hand on what is there. So if `P` holds of the
functions that a stage starts with, and of those that are made on the way, then it holds of all
functions that any stage on the way gets hold of or comes to.

In contrast to what `Origins` say, `P` need not hold of all functions that the literals below a node
stand for. It is enough that it holds of those that are made in fact, at the stages that the run
comes to. `Custody` asks for no more than that, so `P` can be "was made before now".

## Shape of the proof

Up to the next stage (`Inside.admits`) it is enough to follow the plan of a node: each value that it
goes on with is what a stage inside of it has come to.

Up to the end (`Stage.releases_of_inside`) the judgements about `Keeps` are to be used, and they ask
for all machines, while what is known of a stage inside of `s` is known at that stage only.
`evalInside` and `callInside` close the gap: they do what `eval` and `call` do at the stages inside
of `s` and give up everywhere else. Everywhere else nothing is to be shown, and `s` itself cannot
tell the difference (`agreesAt_inside`).
-/

namespace Script

variable {P : Site → Definition → Prop} {settings : Settings}

/-- `P` holds of all functions that a stage starts with. -/
def Stage.Admits (P : Site → Definition → Prop) : Stage → Prop
  | .node _ _ _ scope m => m.scopes.Admits P scope
  | .call _ callee args scope m =>
    callee.Admits P ∧ (∀ v ∈ args, v.Admits P) ∧ m.scopes.Admits P scope

/-- `P` holds of all functions that are on their way out. -/
def Interrupt.Admits (P : Site → Definition → Prop) : Interrupt → Prop
  | .returning value => value.Admits P
  | _ => True

/-- `P` holds of all functions that a stage comes to, and that it leaves in the scopes. A call
changes no scope. -/
def Stage.Releases (settings : Settings) (P : Site → Definition → Prop) : Stage → Prop
  | .node fuel tree site scope m =>
    (∀ v m', eval settings fuel tree site scope m = .ok v m' → m'.scopes.Admits P scope ∧
      v.Admits P) ∧
    ∀ i m', eval settings fuel tree site scope m = .error i m' →
      m'.scopes.Admits P scope ∧ i.Admits P
  | .call fuel callee args scope m =>
    ∀ v m', Script.call settings fuel callee args scope m = .ok v m' → v.Admits P

/-- The stages inside of `s` hand on functions that `P` holds of, as long as they start with no
others. -/
def Stage.Relays (settings : Settings) (P : Site → Definition → Prop) (s : Stage) : Prop :=
  ∀ surroundings t, Inside settings s surroundings t → t.Admits P → t.Releases settings P

/-! ## Cut off at the stages inside -/

open Classical in
/-- Evaluate a node as at the stages inside of `s`, and give up at all others. -/
noncomputable def evalInside (settings : Settings) (s : Stage) (k : Nat) (node : Node) (site : Site)
    (scope : ScopeId) : Eval Value := fun m =>
  if ∃ surroundings, Inside settings s surroundings (.node k node site scope m)
  then eval settings k node site scope m
  else .error (.failing .exhausted) m

open Classical in
/-- Call a value as at the stages inside of `s`, and give up at all others. -/
noncomputable def callInside (settings : Settings) (s : Stage) (k : Nat) (callee : Value)
    (args : List Value) (scope : ScopeId) : Call Value := fun m =>
  if ∃ surroundings, Inside settings s surroundings (.call k callee args scope m)
  then call settings k callee args scope m
  else .error .exhausted m

section

variable {s t : Stage} {k : Nat} {surroundings : List Surrounding}

/-- Cut off there, the evaluation of a node inside is as it is. -/
theorem evalInside_of_inside {node : Node} {site : Site} {scope : ScopeId} {m : Machine}
    (h : Inside settings s surroundings (.node k node site scope m)) :
    evalInside settings s k node site scope m = eval settings k node site scope m :=
  if_pos ⟨surroundings, h⟩

/-- Cut off there, a call inside is as it is. -/
theorem callInside_of_inside {callee : Value} {args : List Value} {scope : ScopeId} {m : Machine}
    (h : Inside settings s surroundings (.call k callee args scope m)) :
    callInside settings s k callee args scope m = call settings k callee args scope m :=
  if_pos ⟨surroundings, h⟩

/-- Cutting off changes nothing at the stages inside. -/
theorem agreesAt_inside (hfuel : s.fuel = k + 1) (h : Inside settings s surroundings t) :
    AgreesAt settings (evalInside settings s k) (callInside settings s k) t := by
  obtain rfl : t.fuel = k := Nat.succ.inj (h.fuel_eq.symm.trans hfuel)
  cases t with
  | node => exact evalInside_of_inside h
  | call => exact callInside_of_inside h

/-- Giving up touches nothing. -/
theorem touches_evalInside (node : Node) (site : Site) (scope : ScopeId) :
    Touches scope node.assigned (evalInside settings s k node site scope) := by
  intro before m hm
  by_cases h : ∃ surroundings, Inside settings s surroundings (.node k node site scope m)
  · rw [evalInside, if_pos h]
    exact (touches_eval_call settings k).1 node site scope before m hm
  · rw [evalInside, if_neg h]
    exact ⟨hm, trivial⟩

/-- Calls that are cut off leave the scopes alone, too. -/
theorem leavesScopes_callInside (callee : Value) (args : List Value) (scope : ScopeId) :
    LeavesScopes (callInside settings s k callee args scope) := by
  intro before m hm
  by_cases h : ∃ surroundings, Inside settings s surroundings (.call k callee args scope m)
  · rw [callInside, if_pos h]
    exact (touches_eval_call settings k).2 callee args scope before m hm
  · rw [callInside, if_neg h]
    exact ⟨hm, trivial⟩

variable (hin : s.Relays settings P)

include hin

/-- Nodes that are cut off hand on what is admitted, if the stages inside do. -/
theorem keeps_evalInside (node : Node) (site : Site) (scope : ScopeId) :
    Keeps (fun m => m.scopes.Admits P scope) (·.Admits P) (Interrupt.Admits P)
      (evalInside settings s k node site scope) := by
  intro m hm
  by_cases h : ∃ surroundings, Inside settings s surroundings (.node k node site scope m)
  · obtain ⟨surroundings, hinside⟩ := h
    obtain ⟨hok, herror⟩ := hin surroundings _ hinside hm
    rw [evalInside_of_inside hinside]
    cases hrun : eval settings k node site scope m with
    | ok v m' => exact hok v m' hrun
    | error i m' => exact herror i m' hrun
  · rw [evalInside, if_neg h]
    exact ⟨hm, trivial⟩

/-- Calls that are cut off hand on what is admitted, if the stages inside do. -/
theorem keeps_callInside {callee : Value} {args : List Value} (hcallee : callee.Admits P)
    (hargs : ∀ v ∈ args, v.Admits P) (scope : ScopeId) :
    Keeps (fun m => m.scopes.Admits P scope) (·.Admits P) (fun _ => True)
      (callInside settings s k callee args scope) := by
  intro m hm
  by_cases h : ∃ surroundings, Inside settings s surroundings (.call k callee args scope m)
  · obtain ⟨surroundings, hinside⟩ := h
    have hresult := hin surroundings _ hinside ⟨hcallee, hargs, hm⟩
    have hscopes := ((touches_eval_call settings k).2 callee args scope).scopes_eq m
    rw [callInside_of_inside hinside]
    have hafter : (Machine.after (call settings k callee args scope m)).scopes.Admits P scope := by
      rw [hscopes]
      exact hm
    cases hrun : call settings k callee args scope m with
    | ok v m' =>
      rw [hrun] at hafter
      exact ⟨hafter, hresult v m' hrun⟩
    | error f m' =>
      rw [hrun] at hafter
      exact ⟨hafter, trivial⟩
  · rw [callInside, if_neg h]
    exact ⟨hm, trivial⟩

end

/-! ## Up to the next stage -/

/-- Where the front of a list falls apart, the list does. -/
theorem eq_append_of_front {α : Type} {all front back before after : List α} {x : α}
    (h : all = front ++ back)
    (hfront : front = before ++ x :: after) : all = before ++ x :: (after ++ back) := by
  rw [h, hfront, List.append_assoc, List.cons_append]

/-- A round that comes to an end was left at its end or by a jump. -/
theorem iteration_eq_ok {body : Eval Value} {goesOn : Bool} {m m₁ : Machine}
    (h : Eval.iteration body m = .ok goesOn m₁) :
    (∃ v, body m = .ok v m₁) ∨ ∃ i, body m = .error i m₁ := by
  unfold Eval.iteration at h
  cases hbody : body m with
  | ok v m₂ =>
    rw [hbody] at h
    cases h
    exact .inl ⟨v, rfl⟩
  | error i m₂ =>
    rw [hbody] at h
    cases i with
    | breaking | continuing =>
      cases h
      exact .inr ⟨_, rfl⟩
    | returning | failing => cases h

/-- `P` holds of the functions at the stages that a plan meets, if it holds of those at the start
and in the values that the plan comes by. -/
theorem Plan.admits_of_meets {k : Nat} {site : Site} {scope : ScopeId} {p p' : Plan}
    (h : Plan.Related (.single P (fun _ => True) (fun _ _ => True) (fun _ _ => True)
      (fun _ => True) (fun _ => True) (fun _ => True)) p p') {m : Machine}
    (hm : m.scopes.Admits P scope)
    (hin : ∀ surroundings t, p.Meets settings k site scope m (.stage surroundings t) → t.Admits P →
      t.Releases settings P)
    {surroundings : List Surrounding} {t : Stage}
    (hmeets : p.Meets settings k site scope m (.stage surroundings t)) : t.Admits P := by
  induction h generalizing m surroundings with
  | done => cases hmeets
  | stop =>
    obtain ⟨e, -, hevent⟩ := hmeets
    cases hevent
  | excused h => cases h
  | part _ _ ih =>
    rcases hmeets with hevent | ⟨v, m₁, hnode, hrest⟩
    · cases hevent
      exact hm
    -- The part is met as well, so what it releases is admitted where the rest goes on.
    · obtain ⟨hm₁, hv⟩ := (hin _ _ (.inl rfl) hm).1 v m₁ hnode
      exact ih v v ⟨hv, rfl⟩ hm₁ (fun surroundings t ht =>
        hin surroundings t (.inr ⟨v, m₁, hnode, ht⟩)) hrest
  | round _ _ ih =>
    rcases hmeets with hevent | ⟨goesOn, m₁, hround, hrest⟩
    · cases hevent
      exact hm
    -- A round may end in a value or in a jump, and releases what is admitted either way.
    · have hm₁ : m₁.scopes.Admits P scope := by
        obtain ⟨hok, herror⟩ := hin _ _ (.inl rfl) hm
        rcases iteration_eq_ok hround with ⟨v, hnode⟩ | ⟨i, hnode⟩
        · exact (hok v m₁ hnode).1
        · exact (herror i m₁ hnode).1
      exact ih goesOn hm₁ (fun surroundings t ht =>
        hin surroundings t (.inr ⟨goesOn, m₁, hround, ht⟩)) hrest
  | @look name next _ _ _ _ ihsome ihnone =>
    simp only [Plan.Meets] at hin hmeets
    cases hfound : m.scopes.get? scope name with
    | none =>
      rw [hfound] at hin hmeets
      exact ihnone hm hin hmeets
    | some v =>
      rw [hfound] at hin hmeets
      exact ihsome v v ⟨hm.get? hfound, rfl⟩ hm hin hmeets
  | @define name _ _ _ _ _ hv _ ih => exact ih (hm.define name hv.1) hin hmeets
  | @unbinding name _ _ _ _ ih =>
    obtain ⟨inner, hinner, hevent⟩ := hmeets
    cases inner with
    | error => cases hevent
    | stage inside t =>
      cases hevent
      exact ih hm (fun inside t ht => hin (inside ++ [.loop scope name]) t ⟨_, ht, rfl⟩) hinner
  | call hcallee hargs =>
    cases hmeets
    exact ⟨hcallee.1, ((List.forall₂_and_left _ _).mp hargs).1, hm⟩

section

variable {k : Nat} {scope : ScopeId} {m m₁ : Machine}

/-- A node comes by functions from literals, but a literal comes to no stage. -/
theorem admits_of_inside_node {fuel : Nat} {node : Node} {site : Site} {t : Stage}
    {surroundings : List Surrounding}
    (hin : (Stage.node fuel node site scope m).Relays settings P) (hm : m.scopes.Admits P scope)
    (h : Inside settings (.node fuel node site scope m) surroundings t) : t.Admits P := by
  obtain ⟨form, span⟩ := node
  have hliteral : ∀ definition, form = .function definition → P site definition := by
    rintro definition rfl
    cases h
  obtain ⟨k, rfl, hmeets⟩ := h.exists_meets
  have hstop : MayStop P (fun _ => True) ⟨form, span⟩ := .of_forall fun _ => trivial
  refine Plan.admits_of_meets (hstop.related_plan (fun _ _ _ _ => trivial) (fun _ _ _ _ => trivial)
    (fun _ _ => trivial) (fun _ _ _ => trivial) trivial hliteral k) hm
    (fun surroundings t ht => ?_) hmeets
  cases Stage.meets_node_iff.mpr ht with
  | inside hinside => exact hin surroundings t hinside

/-- Between two callbacks of `map` nothing is within reach but what is admitted. -/
theorem admits_of_mapFrom {f v : Value} {items before after : List Value}
    (hin : (Stage.call (k + 1) (.builtin .map) [.list items, f] scope m).Relays settings P)
    (hm : m.scopes.Admits P scope) (hf : f.Admits P) (hvalues : ∀ v ∈ items, v.Admits P)
    (hcallable : f.isCallable) (hitems : items = before ++ after)
    (hrun : Builtin.mapFrom (call settings k) f m.scopes.size [] before
      { m with scopes := m.scopes.child scope .empty } = .ok v m₁) :
        m₁.scopes.Admits P m.scopes.size := by
  have hchild := hm.child Bindings.admits_empty
  let s : Stage := .call (k + 1) (.builtin .map) [.list items, f] scope m
  rw [← (folds_mapFrom (callInside settings s k) _ f).congr (folds_mapFrom (call settings k) _ f)
    fun before' item after' _ m' hbefore hrun' =>
      callInside_of_inside (.mapped hcallable (eq_append_of_front hitems hbefore) hrun')] at hrun
  refine (Keeps.of_ok (.mapFrom (fun item hitem => keeps_callInside hin hf ?_ _)
    (fun _ => Value.admits_list.mpr) (List.forall_mem_nil _)) hchild hrun).1
  simpa using hvalues item (hitems ▸ List.mem_append_left after hitem)

/-- Between two callbacks of `reduce` nothing is within reach but what is admitted. -/
theorem admits_of_reduceFrom {f initial v : Value} {items before after : List Value}
    (hin : (Stage.call (k + 1) (.builtin .reduce) [.list items, f, initial] scope m).Relays
      settings P)
    (hm : m.scopes.Admits P scope) (hf : f.Admits P) (hinitial : initial.Admits P)
    (hvalues : ∀ v ∈ items, v.Admits P) (hcallable : f.isCallable)
    (hitems : items = before ++ after)
    (hrun : Builtin.reduceFrom (call settings k) f m.scopes.size initial before
      { m with scopes := m.scopes.child scope .empty } = .ok v m₁) :
    m₁.scopes.Admits P m.scopes.size ∧ v.Admits P := by
  have hchild := hm.child Bindings.admits_empty
  let s : Stage := .call (k + 1) (.builtin .reduce) [.list items, f, initial] scope m
  rw [← (folds_reduceFrom (callInside settings s k) _ f).congr
    (folds_reduceFrom (call settings k) _ f) fun before' item after' _ m' hbefore hrun' =>
      callInside_of_inside (.reduced hcallable (eq_append_of_front hitems hbefore) hrun')] at hrun
  refine Keeps.of_ok
    (.reduceFrom (fun accumulated haccumulated item hitem => keeps_callInside hin hf ?_ _)
    hinitial) hchild hrun
  simpa using ⟨haccumulated, hvalues item (hitems ▸ List.mem_append_left after hitem)⟩

end

/-- If `P` holds of the functions that a stage starts with, then also of those that a stage inside
starts with. -/
theorem Inside.admits {s t : Stage} {surroundings : List Surrounding}
    (hin : s.Relays settings P)
    (hs : s.Admits P) (h : Inside settings s surroundings t) : t.Admits P := by
  cases s with
  | node fuel node site scope m => exact admits_of_inside_node hin hs h
  | call fuel callee args scope m =>
    obtain ⟨-, hargs, hm⟩ := hs
    cases h with
    | body => exact hm.child (Bindings.admits_ofPairs _ hargs)
    | @mapped k _ _ m₁ items f before item after v hf hitems hbefore =>
      have hfunction : f.Admits P := hargs f (by simp)
      have hvalues : ∀ v ∈ items, v.Admits P :=
        Value.admits_list.mp (hargs (.list items) (by simp))
      refine ⟨hfunction, ?_, admits_of_mapFrom hin hm hfunction hvalues hf hitems hbefore⟩
      simpa using hvalues item (by simp [hitems])
    | @reduced k _ _ m₁ items f initial before item after v hf hitems hbefore =>
      have hfunction : f.Admits P := hargs f (by simp)
      have hvalues : ∀ v ∈ items, v.Admits P :=
        Value.admits_list.mp (hargs (.list items) (by simp))
      obtain ⟨hm₁, hv⟩ :=
        admits_of_reduceFrom hin hm hfunction (hargs initial (by simp)) hvalues hf hitems hbefore
      refine ⟨hfunction, ?_, hm₁⟩
      simpa using ⟨hv, hvalues item (by simp [hitems])⟩

/-! ## Up to the end -/

/-- A stage makes a function from the literal at a place. -/
def Stage.Makes (s : Stage) (site : Site) (definition : Definition) : Prop :=
  ∃ fuel span scope m, s = .node (fuel + 1) ⟨.function definition, span⟩ site scope m

/-- A node releases what is admitted, if the stages inside of it relay it and the function it makes
is admitted. -/
theorem releases_node {k : Nat} {node : Node} {site : Site} {scope : ScopeId} {m : Machine}
    (hin : (Stage.node (k + 1) node site scope m).Relays settings P) (hm : m.scopes.Admits P scope)
    (hliteral : ∀ definition, node.form = .function definition → P site definition) :
    (Stage.node (k + 1) node site scope m).Releases settings P := by
  let s : Stage := .node (k + 1) node site scope m
  -- Evaluation and calls are cut off outside of the stage, which makes no difference to it.
  have hagrees :
      evalNode settings k (evalInside settings s k) (callInside settings s k) node site scope m
      = eval settings (k + 1) node site scope m :=
    evalNode_of_agreesAt fun _ _ hinside => agreesAt_inside rfl hinside
  have hstop : MayStop P (Interrupt.Admits P) node := {
    fault := fun _ _ => trivial
    bound := fun _ _ => trivial
    returning := fun _ _ _ hvalue => hvalue
    breaking := fun _ => trivial
    continuing := fun _ => trivial
    exhausted := fun _ => trivial }
  -- Cut off, every node and call hands on what is admitted, and so the general rule applies.
  have hkeeps : Keeps (fun m => m.scopes.Admits P scope) (Value.Admits P) (Interrupt.Admits P)
      (evalNode settings k (evalInside settings s k) (callInside settings s k) node site scope) :=
    .evalNode (fun _ _ hcallee hargs => keeps_callInside hin hcallee hargs scope)
      (fun _ _ _ hm hv => hm.get? hv) (fun _ child _ _ => keeps_evalInside hin child _ scope)
      (fun _ child _ _ => .iteration (keeps_evalInside hin child _ scope) fun _ hi _ _ => hi)
      (fun name _ _ _ hm hv => hm.define name hv) (fun name _ _ hm => hm.remove name) hstop
      (fun _ _ => trivial) hliteral
  rw [Stage.Releases, ← hagrees]
  exact ⟨fun _ _ hrun => hkeeps.of_ok hm hrun, fun _ _ hrun => hkeeps.of_error hm hrun⟩

/-- A call releases what is admitted, if the stages inside of it relay it. -/
theorem releases_call {k : Nat} {callee : Value} {args : List Value} {scope : ScopeId} {m : Machine}
    (hin : (Stage.call (k + 1) callee args scope m).Relays settings P) (hcallee : callee.Admits P)
    (hargs : ∀ v ∈ args, v.Admits P) (hm : m.scopes.Admits P scope) :
    (Stage.call (k + 1) callee args scope m).Releases settings P := by
  let s : Stage := .call (k + 1) callee args scope m
  have hagrees :
      callValue settings (evalInside settings s k) (callInside settings s k) callee args scope m
      = call settings (k + 1) callee args scope m :=
    callValue_of_agreesAt fun _ _ hinside => agreesAt_inside rfl hinside
  have hkeeps : Keeps (fun m => m.scopes.Admits P scope) (Value.Admits P) (fun _ => True)
      (callValue settings (evalInside settings s k) (callInside settings s k) callee
        args scope) := by
    cases callee with
    | function site definition =>
      refine .callFunction (fun _ _ _ => trivial) (fun _ => trivial) ?_
      -- The new scope holds the arguments, which are admitted, and what the body assigns.
      refine .inChild_admits (Bindings.admits_ofPairs definition.params hargs) (fun scope => ?_)
        fun scope => ⟨_, touches_body (touches_evalInside definition.body _ scope)⟩
      refine .deeper (fun _ _ hm => hm) ?_
      exact .ofBody (keeps_evalInside hin definition.body _ scope) trivial (fun _ hv => hv)
        fun _ _ _ => trivial
    | builtin b =>
      refine .run (fun _ _ hm => hm) (fun _ _ => trivial) ?_ ?_ b hargs
      · intro f items hf hitems
        refine .inChild_admits Bindings.admits_empty (fun scope => ?_) fun scope =>
          ⟨[], touches_mapFrom leavesScopes_callInside f scope [] items⟩
        refine .mapFrom (fun item hitem => keeps_callInside hin hf ?_ scope)
          (fun _ => Value.admits_list.mpr)
          (List.forall_mem_nil _)
        simpa using hitems item hitem
      · intro f initial items hf hinitial hitems
        refine .inChild_admits Bindings.admits_empty (fun scope => ?_) fun scope =>
          ⟨[], touches_reduceFrom leavesScopes_callInside f scope initial items⟩
        refine .reduceFrom
          (fun accumulated haccumulated item hitem => keeps_callInside hin hf ?_ scope) hinitial
        simpa using ⟨haccumulated, hitems item hitem⟩
    | number | text | list | null => exact .callRaise trivial
  rw [Stage.Releases, ← hagrees]
  exact fun _ _ hrun => (hkeeps.of_ok hm hrun).2

/-- What a stage comes to is as what the stages inside of it come to, and as the function that it
makes. -/
theorem Stage.releases_of_inside {s : Stage} (hin : s.Relays settings P) (hs : s.Admits P)
    (hmakes : ∀ site definition, s.Makes site definition → P site definition) :
    s.Releases settings P := by
  cases s with
  | node fuel tree site scope m =>
    cases fuel with
    | zero =>
      rw [Releases, eval_zero]
      refine ⟨nofun, fun i m' hrun => ?_⟩
      cases hrun
      exact ⟨hs, trivial⟩
    | succ k =>
      obtain ⟨form, span⟩ := tree
      refine releases_node hin hs fun definition hform =>
        hmakes site definition ⟨k, span, scope, m, ?_⟩
      rw [← show form = .function definition from hform]
  | call fuel callee args scope m =>
    cases fuel with
    | zero =>
      rw [Releases, call_zero]
      nofun
    | succ k => exact releases_call hin hs.1 hs.2.1 hs.2.2

/-- Stages that are in order: they make only functions that `P` holds of, and come only to stages
that are in order again. That such a stage starts with functions that `P` holds of may be used for
both of them. -/
structure Custody (settings : Settings) (P : Site → Definition → Prop) (inOrder : Stage → Prop) :
    Prop where
  makes : ∀ s site definition, inOrder s → s.Makes site definition → P site definition
  inside : ∀ s surroundings t, inOrder s → s.Admits P → Inside settings s surroundings t →
    t.Admits P → inOrder t

namespace Custody

variable {inOrder : Stage → Prop} {surroundings : List Surrounding}

/-- A stage in order releases what is admitted. The induction is over its fuel. -/
theorem releases (h : Custody settings P inOrder) {s : Stage} (hs : inOrder s)
    (hadmits : s.Admits P) :
    s.Releases settings P := by
  refine Stage.releases_of_inside (fun _ t hinside ht => ?_) hadmits fun site definition =>
    h.makes s site definition hs
  exact h.releases (h.inside s _ t hs hadmits hinside ht) ht
-- Each stage has less fuel than the one that it is inside of.
termination_by s.fuel
decreasing_by
  rw [hinside.fuel_eq]
  exact Nat.lt_succ_self t.fuel

/-- All stages that a stage in order comes to are in order and start with functions that `P` holds
of. -/
theorem comesTo (h : Custody settings P inOrder) {s t : Stage} (hs : inOrder s)
    (hadmits : s.Admits P)
    (hcomes : ComesTo settings s surroundings t) : inOrder t ∧ t.Admits P := by
  induction hcomes with
  | here s => exact ⟨hs, hadmits⟩
  | @inside s t u _ _ hinside _ ih =>
    have ht : t.Admits P :=
      hinside.admits (fun _ t' hinside' ht' =>
        h.releases (h.inside s _ t' hs hadmits hinside' ht') ht') hadmits
    exact ih (h.inside s _ t hs hadmits hinside ht) ht

end Custody

end Script
