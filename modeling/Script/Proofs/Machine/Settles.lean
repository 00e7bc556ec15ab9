import Script.Proofs.Machine.Reachable

/-!
# Computations that settle

A computation that is given an amount of fuel settles if some amount is enough: from there on more
fuel changes nothing about how it ends. `Settles inv value stop x` says this of `x` on every machine
with the invariant `inv`, and says of the end what `Keeps inv value stop` does. With a `stop` that
is not true of an exhausted computation, it says that the computation comes to an end.

What does not look at the fuel settles as it is (`Settles.of_keeps`). What is put together from
parts settles with them, at an amount that is enough for each. So a plan settles with its steps
(`Settles.of_related`), as long as none of them is a round of a loop. What is wrapped around a
computation sees nothing of it but its end, so the judgements about ends can be taken from those for
`Keeps`, for a computation that has this end whatever it starts from.
-/

namespace Script

/-- What `Keeps` says about the end of a computation. -/
def Ends {ε α : Type} (inv : Machine → Prop) (value : α → Prop) (stop : ε → Prop) :
    EStateM.Result ε Machine α → Prop
  | .ok a m => inv m ∧ value a
  | .error e m => inv m ∧ stop e

/-- With enough fuel a computation always ends the same way, which is as described. -/
def Settles {ε α : Type} (inv : Machine → Prop) (value : α → Prop) (stop : ε → Prop)
    (x : Nat → EStateM ε Machine α) : Prop :=
  ∀ m, inv m → ∃ result enough, Ends inv value stop result ∧ ∀ fuel, enough ≤ fuel →
    x fuel m = result

namespace Settles

section

variable {ε α β : Type} {inv : Machine → Prop} {value : α → Prop} {stop : ε → Prop}
variable {x : Nat → EStateM ε Machine α}

/-- What does not depend on the fuel settles at once. -/
theorem of_keeps {y : EStateM ε Machine α} (h : Keeps inv value stop y) :
    Settles inv value stop fun _ => y :=
  fun m hm => ⟨y m, 0, h m hm, fun _ _ => rfl⟩

/-- Fuel that is used up on the way may be added at the start. -/
theorem of_succ (h : Settles inv value stop fun fuel => x (fuel + 1)) :
    Settles inv value stop x := by
  intro m hm
  obtain ⟨result, enough, hend, hresult⟩ := h m hm
  refine ⟨result, enough + 1, hend, fun fuel hfuel => ?_⟩
  obtain ⟨fuel, rfl⟩ : ∃ k, fuel = k + 1 := ⟨fuel - 1, by omega⟩
  exact hresult fuel (by omega)

theorem pure {a : α} (h : value a) :
    Settles inv value stop fun _ => (pure a : EStateM ε Machine α) :=
  .of_keeps (.pure h)

/-- A sequence settles if its parts do. -/
theorem bind {value' : β → Prop} {f : Nat → α → EStateM ε Machine β} (hx : Settles inv value stop x)
    (hf : ∀ a, value a → Settles inv value' stop fun fuel => f fuel a) :
    Settles inv value' stop fun fuel => x fuel >>= f fuel := by
  intro m hm
  obtain ⟨result, enough, hend, hresult⟩ := hx m hm
  cases result with
  | error e m' =>
    refine ⟨.error e m', enough, hend, fun fuel hfuel => ?_⟩
    show EStateM.bind (x fuel) (f fuel) m = _
    rw [EStateM.bind, hresult fuel hfuel]
  | ok a m' =>
    obtain ⟨result', enough', hend', hresult'⟩ := hf a hend.2 m' hend.1
    refine ⟨result', max enough enough', hend', fun fuel hfuel => ?_⟩
    show EStateM.bind (x fuel) (f fuel) m = _
    rw [EStateM.bind, hresult fuel (by omega)]
    exact hresult' fuel (by omega)

end

/-! ## Calls -/

/-- A call that settles does so where it is blamed on a place. -/
theorem ofCall {α : Type} {inv : Machine → Prop} {value : α → Prop} {stopCall : Failure → Prop}
    {stop : Interrupt → Prop} {c : Nat → Call α} {span : Span} (h : Settles inv value stopCall c)
    (hstop : ∀ f, stopCall f → stop (.failing (f.blame span))) :
    Settles inv value stop fun fuel => Eval.ofCall (c fuel) span := by
  intro m hm
  obtain ⟨result, enough, hend, hresult⟩ := h m hm
  have hkeeps : Keeps inv value stop (Eval.ofCall (fun _ => result) span) :=
    .ofCall (fun _ _ => hend) hstop
  refine ⟨_, enough, hkeeps m hm, fun fuel hfuel => ?_⟩
  simp only [Eval.ofCall, hresult fuel hfuel]

/-- The body of a function that settles does so as a call. -/
theorem ofBody {inv : Machine → Prop} {value : Value → Prop} {stopBody : Interrupt → Prop}
    {stop : Failure → Prop} {isExpression : Bool} {body : Nat → Eval Value}
    (h : Settles inv value stopBody body) (hnull : value .null)
    (hreturn : ∀ v, stopBody (.returning v) → value v)
    (hstop : ∀ i, stopBody i → (∀ v, i ≠ .returning v) → stop i.uncaught) :
    Settles inv value stop fun fuel => Call.ofBody isExpression (body fuel) := by
  intro m hm
  obtain ⟨result, enough, hend, hresult⟩ := h m hm
  have hkeeps : Keeps inv value stop (Call.ofBody isExpression fun _ => result) :=
    .ofBody (fun _ _ => hend) hnull hreturn hstop
  refine ⟨_, enough, hkeeps m hm, fun fuel hfuel => ?_⟩
  simp only [Call.ofBody, hresult fuel hfuel]

/-! ## Plans -/

section

variable {inv : Machine → Prop} {P : Site → Definition → Prop} {stopCall : Failure → Prop}
variable {stop : Interrupt → Prop} {eval : Nat → Node → Site → ScopeId → Eval Value}
variable {call : Nat → Value → List Value → ScopeId → Call Value} {site : Site} {scope : ScopeId}

/-- The steps of a plan have to settle. None of them may be a loop. -/
abbrev relation (inv : Machine → Prop) (P : Site → Definition → Prop) (stopCall : Failure → Prop)
    (stop : Interrupt → Prop) (eval : Nat → Node → Site → ScopeId → Eval Value) (site : Site)
    (scope : ScopeId) : PlanRelation :=
  .single P stop
    (fun position node => Settles inv (·.Admits P) stop fun fuel =>
      eval fuel node (site.child position) scope)
    (fun _ _ => False)
    (fun name => ∀ m (v : Value), inv m → v.Admits P →
      inv { m with scopes := m.scopes.define scope name v })
    (fun _ => False)
    (fun span => ∀ f, stopCall f → stop (.failing (f.blame span)))

/-- A plan settles if its steps do. -/
theorem of_related
    (hcall : ∀ callee args, callee.Admits P → (∀ v ∈ args, v.Admits P) →
      Settles inv (·.Admits P) stopCall fun fuel => call fuel callee args scope)
    (hlookup : ∀ m name v, inv m → m.scopes.get? scope name = some v → v.Admits P)
    {p p' : Plan} (h : Plan.Related (relation inv P stopCall stop eval site scope) p p') :
    Settles inv (·.Admits P) stop fun fuel => p.run (eval fuel) (call fuel) site scope := by
  induction h with
  | done h => exact .pure h.1
  | stop h => exact .of_keeps (.throw h)
  | excused h | round h | unbinding h => cases h
  | part h _ ih => exact .bind h fun v hv => ih v v ⟨hv, rfl⟩
  | @look name _ _ _ _ _ ihsome ihnone =>
    have hlook : Keeps inv (fun found => ∀ v, found = some v → v.Admits P) stop
        (Eval.lookup scope name) :=
      .lookup fun m v => hlookup m name v
    refine .bind (.of_keeps hlook) fun found hfound => ?_
    cases found with
    | none => exact ihnone
    | some v => exact ihsome v v ⟨hfound v rfl, rfl⟩
  | define h hv _ ih =>
    exact .bind (.of_keeps (.modifyScopes fun m hm => h m _ hm hv.1)) fun _ _ => ih
  | call hcallee hargs h =>
    exact .ofCall (hcall _ _ hcallee.1 ((List.forall₂_and_left _ _).mp hargs).1) h

end

section

variable {inv : Machine → Prop} {value : Value → Prop} {stop : Failure → Prop}
variable {call : Nat → Value → List Value → ScopeId → Call Value} {f : Value} {scope : ScopeId}

/-- `map` settles if its callbacks do. -/
theorem mapFrom {items : List Value}
    (hcall : ∀ item ∈ items, Settles inv value stop fun fuel => call fuel f [item] scope)
    (hlist : ∀ values, (∀ v ∈ values, value v) → value (.list values)) {results : List Value}
    (hresults : ∀ v ∈ results, value v) :
    Settles inv value stop fun fuel => Builtin.mapFrom (call fuel) f scope results items := by
  induction items generalizing results with
  | nil => exact .pure (hlist _ fun v hv => hresults v (List.mem_reverse.mp hv))
  | cons item items ih =>
    refine .bind (hcall item List.mem_cons_self) fun result hresult => ?_
    refine ih (fun item hitem => hcall item (List.mem_cons_of_mem _ hitem)) ?_
    exact List.forall_mem_cons.mpr ⟨hresult, hresults⟩

/-- `reduce` settles if its callbacks do. -/
theorem reduceFrom {items : List Value} (hcall : ∀ accumulated, value accumulated → ∀ item ∈ items,
      Settles inv value stop fun fuel => call fuel f [accumulated, item] scope)
        {accumulated : Value}
    (h : value accumulated) :
    Settles inv value stop fun fuel =>
      Builtin.reduceFrom (call fuel) f scope accumulated items := by
  induction items generalizing accumulated with
  | nil => exact .pure h
  | cons item items ih =>
    refine .bind (hcall accumulated h item List.mem_cons_self) fun next hnext => ?_
    refine ih (fun accumulated h item hitem => ?_) hnext
    exact hcall accumulated h item (List.mem_cons_of_mem _ hitem)

end

end Settles

/-! ## Scopes and the count of calls -/

/-- A machine on which every function within reach of a scope is one that `P` holds of, while a
number of calls is going on. -/
structure Within (P : Site → Definition → Prop) (scope : ScopeId) (depth : Nat) (m : Machine) :
    Prop where
  admits : m.scopes.Admits P scope
  depth_eq : m.depth = depth

namespace Settles

variable {α : Type} {P : Site → Definition → Prop} {depth : Nat} {value : α → Prop}
variable {stop : Failure → Prop}

/-- The count goes back to what it was when a call is over. -/
theorem deeper {scope : ScopeId} {body : Nat → Call α}
    (h : Settles (Within P scope (depth + 1)) value stop body) :
    Settles (Within P scope depth) value stop fun fuel => Call.deeper (body fuel) := by
  rintro m ⟨hm, rfl⟩
  obtain ⟨result, enough, hend, hresult⟩ := h { m with depth := m.depth + 1 } ⟨hm, rfl⟩
  refine ⟨Call.deeper (fun _ => result) m, enough, ?_, fun fuel hfuel => ?_⟩
  · have hback : ∀ m' : Machine, Within P scope (m.depth + 1) m' →
        Within P scope m.depth { m' with depth := m'.depth - 1 } :=
      fun m' hm' => ⟨hm'.admits, by simp only [hm'.depth_eq, Nat.add_sub_cancel]⟩
    cases result with
    | ok a m' => exact ⟨hback m' hend.1, hend.2⟩
    | error f m' => exact ⟨hback m' hend.1, hend.2⟩
  · simp only [Call.deeper, hresult fuel hfuel]

/-- A computation in a new scope may rely on what is within reach of its parent, if the bindings of
the new scope are admitted. When the scope is gone, the others are as they were. -/
theorem inChild {parent : ScopeId} {b : Bindings} {body : Nat → ScopeId → Call α} (hb : b.Admits P)
    (hbody : ∀ scope, Settles (Within P scope depth) value stop fun fuel => body fuel scope)
    (hframe : ∀ fuel scope, ∃ names, Touches scope names (body fuel scope)) :
    Settles (Within P parent depth) value stop fun fuel => Call.inChild parent b (body fuel) := by
  intro m hm
  let start : Machine := { m with scopes := m.scopes.child parent b }
  obtain ⟨result, enough, hend, hresult⟩ :=
    hbody m.scopes.size start ⟨hm.admits.child hb, hm.depth_eq⟩
  have hrun : ∀ fuel, enough ≤ fuel → body fuel m.scopes.size start = result := hresult
  refine ⟨Call.inChild parent b (fun _ _ => result) m, enough, ?_, fun fuel hfuel => ?_⟩
  · obtain ⟨names, htouches⟩ := hframe enough m.scopes.size
    have hafter := htouches.frame start
    rw [hrun enough (Nat.le_refl _)] at hafter
    -- The body has touched its own scope only, which is gone afterwards.
    have hback : ∀ m' : Machine, m'.scopes = (Machine.after result).scopes →
        Within P m.scopes.size depth m' →
        Within P parent depth { m' with scopes := m'.scopes.keep m.scopes.size } := by
      intro m' hscopes hm'
      refine ⟨?_, hm'.depth_eq⟩
      rw [← hscopes] at hafter
      show (m'.scopes.keep m.scopes.size).Admits P parent
      rw [hafter.keep_eq]
      exact hm.admits
    cases result with
    | ok a m' => exact ⟨hback m' rfl hend.1, hend.2⟩
    | error f m' => exact ⟨hback m' rfl hend.1, hend.2⟩
  · show Call.inChild parent b (body fuel) m = _
    unfold Call.inChild
    simp only [start] at hrun
    simp only [hrun fuel hfuel]

end Settles

end Script
