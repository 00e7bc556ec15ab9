import Script.Proofs.Machine.Stages

/-!
# Counting loops

A counting loop adds its step to a counter of its own and tells its body the number through a
variable. Whatever the body does to that variable, the loop goes on counting: before round `i` the
variable is bound to the first number with the step added `i` times (`counterAt`).

`Rounds` are the rounds after which a loop goes on, and `LoopEnds` says how it ends after them. That
every loop makes some rounds and ends goes by induction on the number of rounds that its fuel allows
(`counts_forFrom`). In the end the variable is unbound in the scope of the loop. No other scope was
touched, so the name means what it means above (`ScopeTree.outer?`).
-/

namespace Script

/-! ## Counters -/

/-- The number that a loop has come to after so many rounds: the first one with the step added that
often. -/
def counterAt (first step : Float) : Nat → Float
  | 0 => first
  | i + 1 => counterAt first step i + step

/-- To start one step later is to be one round ahead. -/
theorem counterAt_add_step (first step : Float) (i : Nat) :
    counterAt (first + step) step i = counterAt first step (i + 1) := by
  induction i with
  | zero => rfl
  | succ i ih =>
    rw [counterAt, ih]
    rfl

/-- A counter has not passed the end of its range, seen from where it came. -/
def OnNearSide (counter last step : Float) : Prop :=
  (0.0 < step ∧ counter ≤ last) ∨ (step < 0.0 ∧ last ≤ counter)

/-- A counter is in range if it is on the near side of the last number. -/
theorem inRange_iff {counter last step : Float} :
    inRange counter last step ↔ OnNearSide counter last step := by
  simp [inRange, OnNearSide]

/-- Only numbers can be compared. -/
theorem not_isNaN_of_compare {x y : Float} {ordering : Ordering}
    (h : x.toModel.unpack.compare y.toModel.unpack = some ordering) :
    x.isNaN = false ∧ y.isNaN = false := by
  unfold Float.isNaN Float.Model.isNaN
  generalize x.toModel.unpack = a at h ⊢
  generalize y.toModel.unpack = b at h ⊢
  cases a with
  | notANumber => cases h
  | infinity | zero | finite =>
    cases b with
    | notANumber => cases h
    | infinity | zero | finite => exact ⟨rfl, rfl⟩

/-- Numbers that are in order are no NaN. -/
theorem not_isNaN_of_le {x y : Float} (h : x ≤ y) : x.isNaN = false ∧ y.isNaN = false := by
  have hle : x.toModel.unpack.le y.toModel.unpack = true := of_decide_eq_true h
  obtain ⟨ordering, hcompare, -⟩ := (Option.any_eq_true _ _).1 hle
  exact not_isNaN_of_compare hcompare

/-- Numbers that are in strict order are no NaN. -/
theorem not_isNaN_of_lt {x y : Float} (h : x < y) : x.isNaN = false ∧ y.isNaN = false := by
  have hlt : x.toModel.unpack.lt y.toModel.unpack = true := of_decide_eq_true h
  exact not_isNaN_of_compare (beq_iff_eq.1 hlt)

/-- A round is made with numbers only, none of which is NaN. -/
theorem OnNearSide.not_isNaN {counter last step : Float} (h : OnNearSide counter last step) :
    counter.isNaN = false ∧ last.isNaN = false ∧ step.isNaN = false := by
  rcases h with ⟨hstep, hle⟩ | ⟨hstep, hle⟩
  · exact ⟨(not_isNaN_of_le hle).1, (not_isNaN_of_le hle).2, (not_isNaN_of_lt hstep).2⟩
  · exact ⟨(not_isNaN_of_le hle).2, (not_isNaN_of_le hle).1, (not_isNaN_of_lt hstep).1⟩

/-! ## Rounds -/

/-- The machine after a counting loop, which unbinds its variable. -/
def Machine.counted (m : Machine) (scope : ScopeId) (name : String) : Machine :=
  { m with scopes := m.scopes.remove scope name }

/-- The body of a loop comes to its end or to `continue`. -/
def GoesOn (body : Eval Value) (m m' : Machine) : Prop :=
  (∃ v, body m = .ok v m') ∨ ∃ span, body m = .error (.continuing span) m'

/-- A round after which the loop goes on says so. -/
theorem GoesOn.iteration {body : Eval Value} {m m' : Machine} (h : GoesOn body m m') :
    Eval.iteration body m = .ok true m' := by
  rcases h with ⟨v, h⟩ | ⟨span, h⟩
  · rw [Eval.iteration, h]
  · rw [Eval.iteration, h]

section

variable (scope : ScopeId) (name : String) (last step : Float) (body : Eval Value)

/-- So many rounds of a counting loop after which it goes on, each from where the one before has
come. -/
structure Rounds (first : Float) (n : Nat) (states : Nat → Machine) : Prop where
  near : ∀ i < n, OnNearSide (counterAt first step i) last step
  goesOn : ∀ i < n,
    GoesOn body ((states i).counting scope name (counterAt first step i)) (states (i + 1))

/-- How a counting loop ends after `n` rounds, if its fuel is enough for so many. -/
inductive LoopEnds (fuel : Nat) (first : Float) (n : Nat) (m : Machine) :
    EStateM.Result Interrupt Machine Value → Prop
  | exhausted (hn : n = fuel) :
    LoopEnds fuel first n m (.error (.failing .exhausted) (m.counted scope name))
  | passed (hn : n < fuel) (h : ¬ OnNearSide (counterAt first step n) last step) :
    LoopEnds fuel first n m (.ok .null (m.counted scope name))
  | broken {span : Span} {m' : Machine} (hn : n < fuel)
      (hnear : OnNearSide (counterAt first step n) last step)
      (h : body (m.counting scope name (counterAt first step n)) = .error (.breaking span) m') :
    LoopEnds fuel first n m (.ok .null (m'.counted scope name))
  | returned {v : Value} {m' : Machine} (hn : n < fuel)
      (hnear : OnNearSide (counterAt first step n) last step)
      (h : body (m.counting scope name (counterAt first step n)) = .error (.returning v) m') :
    LoopEnds fuel first n m (.error (.returning v) (m'.counted scope name))
  | failed {failure : Failure} {m' : Machine} (hn : n < fuel)
      (hnear : OnNearSide (counterAt first step n) last step)
      (h : body (m.counting scope name (counterAt first step n)) = .error (.failing failure) m') :
    LoopEnds fuel first n m (.error (.failing failure) (m'.counted scope name))

/-- A counting loop makes some rounds and ends. -/
def Counts (fuel : Nat) (first : Float) (m : Machine)
    (result : EStateM.Result Interrupt Machine Value) : Prop :=
  ∃ n states, n ≤ fuel ∧ states 0 = m ∧ Rounds scope name last step body first n states ∧
    LoopEnds scope name last step body fuel first n (states n) result

end

section

variable {scope : ScopeId} {name : String} {last step : Float} {body : Eval Value}
variable {first : Float} {fuel n : Nat} {m m₁ : Machine} {states : Nat → Machine}
variable {result : EStateM.Result Interrupt Machine Value}

/-- One more round in front of others. -/
theorem Rounds.cons (hnear : OnNearSide first last step)
    (hgoesOn : GoesOn body (m.counting scope name first) (states 0))
    (h : Rounds scope name last step body (first + step) n states) :
    Rounds scope name last step body first (n + 1) (fun i => i.casesOn m states) := by
  constructor
  · intro i hi
    cases i with
    | zero => exact hnear
    | succ i =>
      rw [← counterAt_add_step]
      exact h.near i (Nat.lt_of_succ_lt_succ hi)
  · intro i hi
    cases i with
    | zero => exact hgoesOn
    | succ i =>
      rw [← counterAt_add_step]
      exact h.goesOn i (Nat.lt_of_succ_lt_succ hi)

/-- A loop that ends after some rounds ends after one more from a step before. -/
theorem LoopEnds.succ
    (h : LoopEnds scope name last step body fuel (first + step) n m result) :
    LoopEnds scope name last step body (fuel + 1) first (n + 1) m result := by
  cases h with
  | exhausted hn => exact .exhausted (congrArg (· + 1) hn)
  | passed hn h => exact .passed (Nat.succ_lt_succ hn) (counterAt_add_step first step n ▸ h)
  | broken hn hnear h =>
    rw [counterAt_add_step] at hnear h
    exact .broken (Nat.succ_lt_succ hn) hnear h
  | returned hn hnear h =>
    rw [counterAt_add_step] at hnear h
    exact .returned (Nat.succ_lt_succ hn) hnear h
  | failed hn hnear h =>
    rw [counterAt_add_step] at hnear h
    exact .failed (Nat.succ_lt_succ hn) hnear h

/-- A loop that ends at once makes no rounds. -/
theorem Counts.of_ends (h : LoopEnds scope name last step body fuel first 0 m result) :
    Counts scope name last step body fuel first m result := by
  have hnone : Rounds scope name last step body first 0 fun _ => m :=
    ⟨fun i hi => absurd hi (Nat.not_lt_zero i), fun i hi => absurd hi (Nat.not_lt_zero i)⟩
  exact ⟨0, fun _ => m, Nat.zero_le fuel, rfl, hnone, h⟩

/-- A round in front of a loop that counts is counted. -/
theorem Counts.of_goesOn (hnear : OnNearSide first last step)
    (hgoesOn : GoesOn body (m.counting scope name first) m₁)
    (h : Counts scope name last step body fuel (first + step) m₁ result) :
    Counts scope name last step body (fuel + 1) first m result := by
  obtain ⟨n, states, hn, rfl, hrounds, hends⟩ := h
  exact ⟨n + 1, fun i => i.casesOn m states, Nat.succ_le_succ hn, rfl, hrounds.cons hnear hgoesOn,
    hends.succ⟩

/-- A round binds the variable anew and runs the body. -/
theorem forFrom_of_near (h : OnNearSide first last step) :
    forFrom scope name last step body (fuel + 1) first m
      = (Eval.iteration body >>= fun goesOn =>
          if goesOn then forFrom scope name last step body fuel (first + step) else pure .null)
        (m.counting scope name first) := by
  rw [forFrom, if_pos (inRange_iff.2 h)]
  rfl

/-- Every counting loop makes some rounds and ends. -/
theorem counts_forFrom (scope : ScopeId) (name : String) (last step : Float) (body : Eval Value)
    (fuel : Nat) (first : Float) (m : Machine) :
    Counts scope name last step body fuel first m
      (Eval.finallyScopes (forFrom scope name last step body fuel first)
        (fun scopes => scopes.remove scope name) m) := by
  induction fuel generalizing first m with
  | zero => exact .of_ends (.exhausted rfl)
  | succ fuel ih =>
    rw [Eval.finallyScopes]
    by_cases hnear : OnNearSide first last step
    · -- Only the end of the body and `continue` lead to another round.
      cases hbody : body (m.counting scope name first) with
      | ok v m₁ =>
        have hgoesOn : GoesOn body (m.counting scope name first) m₁ := .inl ⟨v, hbody⟩
        rw [forFrom_of_near hnear, run_bind_of_ok hgoesOn.iteration, if_pos rfl]
        exact .of_goesOn hnear hgoesOn (ih (first + step) m₁)
      | error interrupt m₁ =>
        rw [forFrom_of_near hnear]
        cases interrupt with
        | continuing span =>
          have hgoesOn : GoesOn body (m.counting scope name first) m₁ := .inr ⟨span, hbody⟩
          rw [run_bind_of_ok hgoesOn.iteration, if_pos rfl]
          exact .of_goesOn hnear hgoesOn (ih (first + step) m₁)
        | breaking span =>
          have hround : Eval.iteration body (m.counting scope name first) = .ok false m₁ := by
            rw [Eval.iteration, hbody]
          rw [run_bind_of_ok hround]
          exact .of_ends (.broken (Nat.succ_pos fuel) hnear hbody)
        | returning v =>
          have hround : Eval.iteration body (m.counting scope name first)
              = .error (.returning v) m₁ := by
            rw [Eval.iteration, hbody]
          rw [run_bind_of_error hround]
          exact .of_ends (.returned (Nat.succ_pos fuel) hnear hbody)
        | failing failure =>
          rw [run_bind_of_error (iteration_of_failing hbody)]
          exact .of_ends (.failed (Nat.succ_pos fuel) hnear hbody)
    · rw [forFrom, if_neg (mt inRange_iff.1 hnear)]
      exact .of_ends (.passed (Nat.succ_pos fuel) hnear)

end

/-! ## The variable -/

namespace ScopeTree

/-- What a name means above a scope. -/
def outer? (tree : ScopeTree) (id : ScopeId) (name : String) : Option Value :=
  (tree.parent? id).bind fun parent => if parent < id then tree.get? parent name else none

/-- A name means what it is bound to in a scope, or else what it means above. -/
theorem get?_eq_or (tree : ScopeTree) (id : ScopeId) (name : String) :
    tree.get? id name = ((tree.bindings id).get? name).or (tree.outer? id name) := by
  rw [get?, outer?, parent?, bindings]
  cases hscope : tree.scopes[id]? with
  | none => rfl
  | some scope =>
    cases hvalue : scope.bindings.get? name with
    | some value => simp [hvalue]
    | none =>
      cases hparent : scope.parent with
      | none => simp [hvalue, hparent]
      | some parent => simp [hvalue, hparent]

end ScopeTree

namespace Frame

variable {scope : ScopeId} {names : List String} {before after : ScopeTree}

/-- Names mean the same in all older scopes. -/
theorem get?_of_lt (h : Frame scope names before after) {id : ScopeId} (hid : id < scope)
    (name : String) :
    after.get? id name = before.get? id name := by
  induction id using Nat.strongRecOn with
  | _ id ih =>
    rw [ScopeTree.get?_eq_or, ScopeTree.get?_eq_or, h.elsewhere id (Nat.ne_of_lt hid),
      ScopeTree.outer?, ScopeTree.outer?, h.parent id]
    cases before.parent? id with
    | none => rfl
    | some parent =>
      by_cases hlt : parent < id
      · simp only [Option.bind_some, if_pos hlt, ih parent hlt (Nat.lt_trans hlt hid)]
      · simp only [Option.bind_some, if_neg hlt]

/-- What a name means above a scope is not changed by what is done in the scope. -/
theorem outer?_eq (h : Frame scope names before after) (name : String) :
    after.outer? scope name = before.outer? scope name := by
  rw [ScopeTree.outer?, ScopeTree.outer?, h.parent scope]
  cases before.parent? scope with
  | none => rfl
  | some parent =>
    by_cases hlt : parent < scope
    · simp only [Option.bind_some, if_pos hlt, h.get?_of_lt hlt]
    · simp only [Option.bind_some, if_neg hlt]

end Frame

section

variable {scope : ScopeId} {name : String} {names : List String} {last step first : Float}
    {body : Eval Value}
variable {fuel n : Nat} {m m' : Machine} {states : Nat → Machine}
variable {result : EStateM.Result Interrupt Machine Value}

/-- At the start of a round the variable is bound to the counter. -/
theorem bindings_counting (h : scope < m.scopes.size) (name : String) (counter : Float) :
    ((m.counting scope name counter).scopes.bindings scope).get? name = some (.number counter) := by
  rw [Machine.counting, ScopeTree.define, ScopeTree.bindings_update_self h,
    Bindings.get?_insert_self]

/-- A round leaves as many scopes as there were. -/
theorem GoesOn.size_eq (hbody : Touches scope names body) (h : GoesOn body m m') :
    m'.scopes.size = m.scopes.size := by
  have hframe := hbody.frame m
  rcases h with ⟨v, h⟩ | ⟨span, h⟩
  · rw [h] at hframe
    exact hframe.size
  · rw [h] at hframe
    exact hframe.size

/-- There are as many scopes before each round as there were at first. -/
theorem Rounds.size_eq (hbody : Touches scope names body)
    (h : Rounds scope name last step body first n states) {i : Nat} (hi : i ≤ n) :
    (states i).scopes.size = (states 0).scopes.size := by
  induction i with
  | zero => rfl
  | succ i ih =>
    have hround := (h.goesOn i hi).size_eq hbody
    rw [Machine.counting, ScopeTree.define, ScopeTree.size_update] at hround
    exact hround.trans (ih (Nat.le_of_lt hi))

/-- However a loop ends, it has unbound its variable at last. -/
theorem LoopEnds.exists_counted (h : LoopEnds scope name last step body fuel first n m result) :
    ∃ m' : Machine, Machine.after result = m'.counted scope name := by
  cases h <;> exact ⟨_, rfl⟩

/-- After the loop its variable is not bound in its scope. -/
theorem bindings_counted (h : scope < (m.counted scope name).scopes.size) :
    ((m.counted scope name).scopes.bindings scope).get? name = none := by
  rw [Machine.counted, ScopeTree.remove, ScopeTree.size_update] at h
  rw [Machine.counted, ScopeTree.remove, ScopeTree.bindings_update_self h, Bindings.get?_erase_self]

end

section

variable {settings : Settings} {k : Nat} {site : Site} {scope : ScopeId} {m m₁ m₂ m₃ : Machine}

/-- To come to a bound leaves as many scopes as there were. -/
theorem size_of_evalNumber {node : Node} {x : Float}
    (h : evalNumber (eval settings k) node site scope m = .ok x m₁) :
    m₁.scopes.size = m.scopes.size := by
  have htouches : Touches scope node.assigned (evalNumber (eval settings k) node site scope) :=
    fun before => .evalNumber ((touches_eval_call settings k).1 node site scope before) trivial
  have hframe := htouches.frame m
  rw [h] at hframe
  exact hframe.size

/-- To come to the bounds leaves as many scopes as there were. -/
theorem Bounds.size_eq {first last : Node} {step : Option Node} {x y z : Float}
    (h : Bounds settings k site scope first last step x y z m m₁ m₂ m₃) :
    m₃.scopes.size = m.scopes.size := by
  have hstep : m₃.scopes.size = m₂.scopes.size := by
    have hstep := h.step
    cases step with
    | none =>
      cases hstep
      rfl
    | some step => exact size_of_evalNumber hstep
  exact hstep.trans ((size_of_evalNumber h.last).trans (size_of_evalNumber h.first))

end

/-- A counting loop whose bounds are known. -/
theorem evalNode_of_bounds {settings : Settings} {k : Nat} {site : Site} {scope : ScopeId}
    {name : String} {first last body : Node} {step : Option Node} {span : Span} {x y z : Float}
    {m m₁ m₂ m₃ : Machine} {call : Value → List Value → ScopeId → Call Value}
    (hbounds : Bounds settings k site scope first last step x y z m m₁ m₂ m₃) :
    evalNode settings k (eval settings k) call ⟨.forLoop name first last step body, span⟩
      site scope m =
      if z == 0.0 then .error (.failing (.error ⟨.zeroStep, some span⟩)) m₃
      else
        Eval.finallyScopes
          (forFrom scope name y z
            (eval settings k body (site.child (if step.isSome then 3 else 2)) scope) k x)
          (fun scopes => scopes.remove scope name) m₃ := by
  have hstep := hbounds.step
  cases step <;>
    · refine (run_bind_of_ok hbounds.first).trans ((run_bind_of_ok hbounds.last).trans
        ((run_bind_of_ok hstep).trans ?_))
      cases hz : z == 0.0 <;> simp only [hz] <;> rfl

/-- A counting loop counts whatever its body does. It makes some rounds after which it goes on, and
ends: when the counter has passed the end of the range, or when the body is left by `break`, by
`return` or by a failure (or when the fuel is used up). The counter of round `i` is the first number
with the step added `i` times, and each run of the body starts with the variable bound to it in the
scope of the loop. No run starts with anything that is not a number. In the end the variable is not
bound in the scope of the loop, all other scopes are as they were, and the name means what it means
above. -/
theorem counting_loops_count {settings : Settings} {k : Nat} {site : Site} {scope : ScopeId}
    {first last : Node} {step : Option Node} {x y z : Float} {m m₁ m₂ m₃ : Machine}
    (hbounds : Bounds settings k site scope first last step x y z m m₁ m₂ m₃)
    (hz : (z == 0.0) = false)
    (hscope : scope < m.scopes.size) (name : String) (body : Node) (span : Span) :
    let run := eval settings k body (site.child (if step.isSome then 3 else 2)) scope
    let result := eval settings (k + 1) ⟨.forLoop name first last step body, span⟩ site scope m
    let after := Machine.after result
    (∃ n states, n ≤ k ∧ states 0 = m₃ ∧
      Rounds scope name y z run x n states ∧ LoopEnds scope name y z run k x n (states n) result ∧
      ∀ i ≤ n,
        (((states i).counting scope name (counterAt x z i)).scopes.bindings scope).get? name
          = some (.number (counterAt x z i)) ∧
        ((states i).counting scope name (counterAt x z i)).scopes.get? scope name
          = some (.number (counterAt x z i))) ∧
    (∀ counter, OnNearSide counter y z →
      counter.isNaN = false ∧ y.isNaN = false ∧ z.isNaN = false) ∧
    (after.scopes.bindings scope).get? name = none ∧
    (∀ id ≠ scope, after.scopes.bindings id = m.scopes.bindings id) ∧
    after.scopes.get? scope name = m.scopes.outer? scope name := by
  intro run result after
  have hresult : result = Eval.finallyScopes (forFrom scope name y z run k x)
      (fun scopes => scopes.remove scope name) m₃ := by
    show eval settings (k + 1) _ site scope m = _
    rw [eval_succ, evalNode_of_bounds hbounds, hz, if_neg Bool.false_ne_true]
  have hcounts := counts_forFrom scope name y z run k x m₃
  rw [← hresult] at hcounts
  obtain ⟨n, states, hn, hstart, hrounds, hends⟩ := hcounts
  -- The loop touches its own scope only, and leaves all scopes in place.
  have hframe :=
    ((touches_eval_call settings (k + 1)).1 ⟨.forLoop name first last step body, span⟩ site
    scope).frame m
  have hunbound : (after.scopes.bindings scope).get? name = none := by
    -- However the loop ends, the variable is taken away last.
    obtain ⟨m', hm'⟩ := hends.exists_counted
    have hsize : scope < after.scopes.size := by rwa [hframe.size]
    show ((Machine.after result).scopes.bindings scope).get? name = none
    rw [hm']
    exact bindings_counted (hm' ▸ hsize)
  refine ⟨⟨n, states, hn, hstart, hrounds, hends, fun i hi => ?bound⟩,
    fun counter h => h.not_isNaN, hunbound, hframe.elsewhere, ?visible⟩
  case bound =>
    have hsize : scope < (states i).scopes.size := by
      rw [hrounds.size_eq ((touches_eval_call settings k).1 body _ scope) hi, hstart,
        hbounds.size_eq]
      exact hscope
    have hbound := bindings_counting hsize name (counterAt x z i)
    refine ⟨hbound, ?_⟩
    rw [ScopeTree.get?_eq_or, hbound, Option.some_or]
  case visible => rw [ScopeTree.get?_eq_or, hunbound, Option.none_or, hframe.outer?_eq]

/-- A loop `for i = 2 : 1 by -1` around a loop `for i = 7 : 8`, in a scope with an `i` of its own
below one with another `i`: the inner loop unbinds the variable of the outer one, and in the end the
name means what it means above. -/
theorem counting_loops_count_nested :
    let node : Form → Node := fun form => ⟨form, default⟩
    let number : Float → Node := fun x => node (.number x)
    let inner := node (.forLoop "i" (number 7.0) (number 8.0) none (node .null))
    let outer := node (.forLoop "i" (number 2.0) (number 1.0) (some (number (-1.0))) inner)
    let above := ScopeTree.root (Bindings.empty.insert "i" (.text "above"))
    let m : Machine := ⟨above.child 0 (Bindings.empty.insert "i" .null), 0, .new [] none⟩
    let run := eval .default 5 inner ((Site.root 0).child 3) 1
    let result := eval .default 6 outer (.root 0) 1 m
    Bounds .default 5 (.root 0) 1 (number 2.0) (number 1.0) (some (number (-1.0))) 2.0 1.0
      (-1.0) m m m m ∧
    ((-1.0 : Float) == 0.0) = false ∧ 1 < m.scopes.size ∧
    (∃ n states, n ≤ 5 ∧ states 0 = m ∧ Rounds 1 "i" 1.0 (-1.0) run 2.0 n states ∧
      LoopEnds 1 "i" 1.0 (-1.0) run 5 2.0 n (states n) result) ∧
    ((Machine.after result).scopes.bindings 1).get? "i" = none ∧
    (Machine.after result).scopes.get? 1 "i" = some (.text "above") := by
  intro node number inner outer above m run result
  have hbounds :
      Bounds .default 5 (.root 0) 1 (number 2.0) (number 1.0) (some (number (-1.0))) 2.0 1.0 (-1.0)
      m m m m := ⟨rfl, rfl, rfl⟩
  have hz : ((-1.0 : Float) == 0.0) = false := by decide
  have hscope : 1 < m.scopes.size := by decide
  obtain ⟨⟨n, states, hn, hstart, hrounds, hends, -⟩, -, hunbound, -, hvisible⟩ :=
    counting_loops_count hbounds hz hscope "i" inner default
  have habove : m.scopes.outer? 1 "i" = some (.text "above") := by
    show m.scopes.get? ScopeTree.rootId "i" = some (.text "above")
    rw [ScopeTree.get?_rootId]
    rfl
  exact ⟨hbounds, hz, hscope, ⟨n, states, hn, hstart, hrounds, hends⟩, hunbound,
    hvisible.trans habove⟩

end Script
