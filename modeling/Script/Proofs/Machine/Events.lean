import Script.Proofs.Machine.Stages

/-!
# What a stage meets

Until it ends, a stage meets other stages, and errors of its own: these are its events. For a node
they are listed form by form by `Inside` and `Raises`. They can be read off its plan as well, step
by step: `Plan.Meets` says which events are met when a plan is carried out, by recursion over the
steps.

Both say the same (`Stage.meets_node_iff`). So what holds of all events of a node is shown for the
steps of plans. Here this is done for what becomes of an error: a plan fails if an event that it
meets does (`Plan.run_of_meets`), and only then (`Plan.exists_meets_of_run`).
-/

namespace Script

/-! ## Events -/

/-- Something that a stage comes to. -/
inductive Event where
  /-- Another stage. Between them an error leaves the constructs in the list. -/
  | stage (surroundings : List Surrounding) (t : Stage)
  /-- An error of its own, and the machine that is left behind. -/
  | error (e : RuntimeError) (m : Machine)

namespace Event

/-- What an event in a construct is outside of it. -/
def leave (surrounding : Surrounding) : Event → Event
  | .stage surroundings t => .stage (surroundings ++ [surrounding]) t
  | .error e m => .error e (surrounding.leave m)

/-- An event is, or ends in, a failure that leaves a machine behind. -/
def Fails (settings : Settings) : Event → Failure → Machine → Prop
  | .stage surroundings t, f, m => ∃ f₁ m₁, Script.Fails settings t f₁ m₁ ∧
      f = Surrounding.passAll surroundings f₁ ∧ m = Surrounding.leaveAll surroundings m₁
  | .error e m₁, f, m => f = .error e ∧ m = m₁

end Event

/-- A stage comes to another one, or to an error of its own. -/
inductive Stage.Meets (settings : Settings) (s : Stage) : Event → Prop
  | inside {surroundings : List Surrounding} {t : Stage} (h : Inside settings s surroundings t) :
      Meets settings s (.stage surroundings t)
  | raises {e : RuntimeError} {m : Machine} (h : Raises settings s e m) :
      Meets settings s (.error e m)

/-- A plan that is carried out from a machine comes to an event. -/
def Plan.Meets (settings : Settings) (k : Nat) (site : Site) (scope : ScopeId) :
    Plan → Machine → Event → Prop
  | .done _, _, _ => False
  | .stop interrupt, m, event => ∃ e, interrupt = .failing (.error e) ∧ event = .error e m
  | .part position node next, m, event =>
    event = .stage [] (.node k node (site.child position) scope m) ∨
      ∃ v m₁, eval settings k node (site.child position) scope m = .ok v m₁ ∧
        (next v).Meets settings k site scope m₁ event
  | .round position node next, m, event =>
    event = .stage [] (.node k node (site.child position) scope m) ∨
      ∃ goesOn m₁, Eval.iteration (eval settings k node (site.child position) scope) m
          = .ok goesOn m₁ ∧
        (next goesOn).Meets settings k site scope m₁ event
  | .look name next, m, event =>
    (next (m.scopes.get? scope name)).Meets settings k site scope m event
  | .define name value next, m, event =>
    next.Meets settings k site scope { m with scopes := m.scopes.define scope name value } event
  | .unbinding name body, m, event =>
    ∃ inner, body.Meets settings k site scope m inner ∧ event = inner.leave (.loop scope name)
  | .call callee args span, m, event =>
    event = .stage [.call span] (.call k callee args scope m)

/-! ## Events of several steps -/

namespace Plan

variable {settings : Settings} {k : Nat} {site : Site} {scope : ScopeId} {m : Machine}
    {event : Event}

/-- A plan that raises an error meets that error. -/
theorem meets_raise_iff {fault : Fault} {span : Span} :
    (raise fault span).Meets settings k site scope m event ↔
      event = .error ⟨fault, some span⟩ m := by
  simp [raise, Meets]

/-- A plan that ends with a result meets an error if the result is a fault. -/
theorem meets_ofExcept_iff {result : Except Fault Value} {span : Span} :
    (ofExcept result span).Meets settings k site scope m event ↔
      ∃ fault, result = .error fault ∧ event = .error ⟨fault, some span⟩ m := by
  cases result with
  | ok value => simp [ofExcept, Meets]
  | error fault => simp [ofExcept, meets_raise_iff]

/-- A plan of one part meets that part. -/
theorem meets_part_done_iff {position : Nat} {node : Node} :
    (part position node done).Meets settings k site scope m event ↔
      event = .stage [] (.node k node (site.child position) scope m) := by
  simp [Meets]

/-- Nodes in order meet one of them, after those before it, or what comes after all of them. -/
theorem meets_each_iff {next : List Value → Plan} {values : List Value} {position : Nat}
    {nodes : List Node} :
    (each next values position nodes).Meets settings k site scope m event ↔
      (∃ before node after, nodes = before ++ node :: after ∧ ∃ values' m₁,
        evalEach (eval settings k) site scope values position before m = .ok values' m₁ ∧
        event = .stage [] (.node k node (site.child (position + before.length)) scope m₁)) ∨
      ∃ values' m₁, evalEach (eval settings k) site scope values position nodes m = .ok values' m₁ ∧
        (next values').Meets settings k site scope m₁ event := by
  induction nodes generalizing values position m with
  | nil => simp [each, evalEach, pure, EStateM.pure]
  | cons node nodes ih =>
    constructor
    -- An event of the rest is met after one node more, so its position is counted from there.
    · rintro (rfl | ⟨v, m₁, hnode, hrest⟩)
      · exact .inl ⟨[], node, nodes, rfl, _, m, rfl, rfl⟩
      rcases ih.mp hrest with ⟨before, child, after, rfl, values', m₂, hbefore, rfl⟩ |
        ⟨values', m₂, hall, hnext⟩
      · refine .inl ⟨node :: before, child, after, rfl, values', m₂, ?_, ?_⟩
        · exact (run_bind_of_ok hnode).trans hbefore
        · rw [List.length_cons, Nat.add_right_comm, Nat.add_assoc]
      · exact .inr ⟨values', m₂, (run_bind_of_ok hnode).trans hall, hnext⟩
    · rintro (⟨before, child, after, hnodes, values', m₂, hbefore, rfl⟩
        | ⟨values', m₂, hall, hnext⟩)
      · cases before with
        | nil =>
          cases hnodes
          cases hbefore
          exact .inl rfl
        | cons first before =>
          cases hnodes
          obtain ⟨v, m₁, hnode, hbefore⟩ := run_bind_eq_ok hbefore
          refine .inr ⟨v, m₁, hnode,
            ih.mpr (.inl ⟨before, child, after, rfl, values', m₂, hbefore, ?_⟩)⟩
          rw [List.length_cons, Nat.add_right_comm, Nat.add_assoc]
      · obtain ⟨v, m₁, hnode, hall⟩ := run_bind_eq_ok hall
        exact .inr ⟨v, m₁, hnode, ih.mpr (.inr ⟨values', m₂, hall, hnext⟩)⟩

/-- A sequence meets one of its nodes, after those before it. -/
theorem meets_sequence_iff {last : Value} {position : Nat} {nodes : List Node} :
    (sequence last position nodes).Meets settings k site scope m event ↔
      ∃ before node after, nodes = before ++ node :: after ∧ ∃ v m₁,
        evalSequence (eval settings k) site scope last position before m = .ok v m₁ ∧
        event = .stage [] (.node k node (site.child (position + before.length)) scope m₁) := by
  induction nodes generalizing last position m with
  | nil => simp [sequence, Meets]
  | cons node nodes ih =>
    constructor
    · rintro (rfl | ⟨v, m₁, hnode, hrest⟩)
      · exact ⟨[], node, nodes, rfl, last, m, rfl, rfl⟩
      obtain ⟨before, child, after, rfl, w, m₂, hbefore, rfl⟩ := ih.mp hrest
      refine ⟨node :: before, child, after, rfl, w, m₂, (run_bind_of_ok hnode).trans hbefore, ?_⟩
      rw [List.length_cons, Nat.add_right_comm, Nat.add_assoc]
    · rintro ⟨before, child, after, hnodes, w, m₂, hbefore, rfl⟩
      cases before with
      | nil =>
        cases hnodes
        cases hbefore
        exact .inl rfl
      | cons first before =>
        cases hnodes
        obtain ⟨v, m₁, hnode, hbefore⟩ := run_bind_eq_ok hbefore
        refine .inr ⟨v, m₁, hnode, ih.mpr ⟨before, child, after, rfl, w, m₂, hbefore, ?_⟩⟩
        rw [List.length_cons, Nat.add_right_comm, Nat.add_assoc]

/-- Arms meet a condition, the body of the first arm whose condition holds, or the last branch. -/
theorem meets_choose_iff {otherwise : Option Node} {position : Nat} {arms : List Arm} :
    (choose otherwise position arms).Meets settings k site scope m event ↔
      (∃ before arm after m₁, arms = before ++ arm :: after ∧
        Refused settings k site scope position before m m₁ ∧
        (event = .stage []
            (.node k arm.cond (site.child (position + 2 * before.length)) scope m₁) ∨
          ∃ v m₂, eval settings k arm.cond (site.child (position + 2 * before.length)) scope m₁
              = .ok v m₂ ∧ v.isTruthy ∧
            event = .stage []
              (.node k arm.body (site.child (position + 2 * before.length + 1)) scope m₂))) ∨
      ∃ body m₁, otherwise = some body ∧ Refused settings k site scope position arms m m₁ ∧
        event = .stage [] (.node k body (site.child (position + 2 * arms.length)) scope m₁) := by
  induction arms generalizing position m with
  | nil =>
    cases otherwise with
    | none => simp [choose, Meets]
    | some body =>
      rw [choose, meets_part_done_iff]
      constructor
      · rintro rfl
        exact .inr ⟨body, m, rfl, .nil position m, rfl⟩
      · rintro (⟨before, _, _, _, harms, -⟩ | ⟨_, _, hbody, hrefused, rfl⟩)
        · simp at harms
        · cases hbody
          cases hrefused
          rfl
  | cons arm arms ih =>
    -- An arm takes two positions, those of its condition and its body.
    have hshift : ∀ n, position + 2 + 2 * n = position + 2 * (n + 1) := by
      intro n
      omega
    simp only [choose, Meets]
    constructor
    · rintro (rfl | ⟨v, m₁, hcond, hrest⟩)
      · exact .inl ⟨[], arm, arms, m, rfl, .nil position m, .inl rfl⟩
      split at hrest
      · next htrue =>
        rw [meets_part_done_iff] at hrest
        exact .inl ⟨[], arm, arms, m, rfl, .nil position m, .inr ⟨v, m₁, hcond, htrue, hrest⟩⟩
      · next hfalse =>
        rw [Bool.not_eq_true] at hfalse
        rcases ih.mp hrest with ⟨before, arm', after, m₂, rfl, hbefore, hmeets⟩ |
          ⟨body, m₂, hbody, harms, rfl⟩
        · rw [hshift] at hmeets
          exact .inl ⟨arm :: before, arm', after, m₂, rfl, .cons hcond hfalse hbefore, hmeets⟩
        · rw [hshift]
          exact .inr ⟨body, m₂, hbody, .cons hcond hfalse harms, rfl⟩
    · rintro (⟨before, arm', after, m₂, harms, hbefore, hmeets⟩
        | ⟨body, m₂, hbody, hrefused, hmeets⟩)
      · cases hbefore with
        | nil =>
          cases harms
          rcases hmeets with rfl | ⟨v, m₁, hcond, htrue, rfl⟩
          · exact .inl rfl
          · refine .inr ⟨v, m₁, hcond, ?_⟩
            rw [if_pos htrue, meets_part_done_iff]
            rfl
        | cons hcond hfalse hbefore =>
          cases harms
          refine .inr ⟨_, _, hcond, ?_⟩
          rw [hfalse, if_neg Bool.false_ne_true]
          rw [List.length_cons, ← hshift] at hmeets
          exact ih.mpr (.inl ⟨_, arm', after, m₂, rfl, hbefore, hmeets⟩)
      · cases hrefused with
        | cons hcond hfalse hrefused =>
          refine .inr ⟨_, _, hcond, ?_⟩
          rw [hfalse, if_neg Bool.false_ne_true]
          rw [List.length_cons, ← hshift] at hmeets
          exact ih.mpr (.inr ⟨body, m₂, hbody, hrefused, hmeets⟩)

/-- A node that has to be a number is met itself, or is none, or what comes after it is met. -/
theorem meets_number_iff {position : Nat} {node : Node} {next : Float → Plan} :
    (number position node next).Meets settings k site scope m event ↔
      event = .stage [] (.node k node (site.child position) scope m) ∨
      (∃ v m₁, eval settings k node (site.child position) scope m = .ok v m₁ ∧
        (∀ x, v ≠ .number x) ∧ event = .error ⟨.expectedNumber, some node.span⟩ m₁) ∨
      ∃ x m₁, evalNumber (eval settings k) node (site.child position) scope m = .ok x m₁ ∧
        (next x).Meets settings k site scope m₁ event := by
  constructor
  · rintro (rfl | ⟨v, m₁, hnode, hrest⟩)
    · exact .inl rfl
    · cases v with
      | number x => exact .inr (.inr ⟨x, m₁, run_bind_of_ok hnode, hrest⟩)
      | text | list | null | function | builtin =>
        -- Every other value makes the plan raise an error, and that is the event.
        exact .inr (.inl ⟨_, m₁, hnode, fun _ => Value.noConfusion, meets_raise_iff.mp hrest⟩)
  · rintro (rfl | ⟨v, m₁, hnode, hv, rfl⟩ | ⟨x, m₁, hnode, hnext⟩)
    · exact .inl rfl
    · refine .inr ⟨v, m₁, hnode, ?_⟩
      cases v with
      | number x => exact absurd rfl (hv x)
      | text | list | null | function | builtin => exact meets_raise_iff.mpr rfl
    · obtain ⟨v, m₂, hnode, hv⟩ := run_bind_eq_ok hnode
      cases v with
      | number y =>
        cases hv
        exact .inr ⟨_, _, hnode, hnext⟩
      | text | list | null | function | builtin => cases hv

/-- A loop meets its condition or its body, in one of its rounds. -/
theorem meets_whileLoop_iff {cond body : Node} {n : Nat} :
    (whileLoop cond body n).Meets settings k site scope m event ↔
      ∃ rounds m₁, rounds < n ∧
        WhileRounds (eval settings k cond (site.child 0) scope)
          (eval settings k body (site.child 1) scope) rounds m m₁ ∧
        (event = .stage [] (.node k cond (site.child 0) scope m₁) ∨
          ∃ v m₂, eval settings k cond (site.child 0) scope m₁ = .ok v m₂ ∧ v.isTruthy ∧
            event = .stage [] (.node k body (site.child 1) scope m₂)) := by
  -- The induction is on the number of rounds there is fuel for.
  induction n generalizing m with
  | zero => simp [whileLoop, Meets]
  | succ n ih =>
    simp only [whileLoop, Meets]
    constructor
    · rintro (rfl | ⟨v, m₁, hcond, hrest⟩)
      · exact ⟨0, m, Nat.succ_pos n, .zero m, .inl rfl⟩
      split at hrest
      · next htrue =>
        rcases hrest with rfl | ⟨goesOn, m₂, hbody, hrest⟩
        · exact ⟨0, m, Nat.succ_pos n, .zero m, .inr ⟨v, m₁, hcond, htrue, rfl⟩⟩
        cases goesOn with
        -- A round that was broken out of ends the loop, and nothing more is met.
        | false => cases hrest
        | true =>
          obtain ⟨rounds, m₃, hlt, hrounds, hmeets⟩ := ih.mp hrest
          exact ⟨rounds + 1, m₃, Nat.succ_lt_succ hlt, .succ hcond htrue hbody hrounds, hmeets⟩
      · cases hrest
    · rintro ⟨rounds, m₁, hlt, hrounds, hmeets⟩
      cases hrounds with
      | zero =>
        rcases hmeets with rfl | ⟨v, m₂, hcond, htrue, rfl⟩
        · exact .inl rfl
        · refine .inr ⟨v, m₂, hcond, ?_⟩
          rw [if_pos htrue]
          exact .inl rfl
      | succ hcond htrue hbody hrounds =>
        refine .inr ⟨_, _, hcond, ?_⟩
        rw [if_pos htrue]
        exact .inr ⟨true, _, hbody, ih.mpr ⟨_, m₁, Nat.lt_of_succ_lt_succ hlt, hrounds, hmeets⟩⟩

/-- A counting loop meets its body, in one of its rounds. -/
theorem meets_forRounds_iff {name : String} {last step : Float} {position : Nat} {body : Node}
    {n : Nat} {counter : Float} :
    (forRounds name last step position body n counter).Meets settings k site scope m event ↔
      ∃ rounds counter' m₁, rounds < n ∧
        ForRounds scope name last step (eval settings k body (site.child position) scope) rounds
          counter m counter' m₁ ∧
        inRange counter' last step ∧
        event = .stage []
          (.node k body (site.child position) scope (m₁.counting scope name counter')) := by
  -- As for the other loop, with the counter set before each round.
  induction n generalizing counter m with
  | zero => simp [forRounds, Meets]
  | succ n ih =>
    rw [forRounds]
    constructor
    · intro hmeets
      split at hmeets
      · next hin =>
        rcases hmeets with rfl | ⟨goesOn, m₁, hbody, hrest⟩
        · exact ⟨0, counter, m, Nat.succ_pos n, .zero counter m, hin, rfl⟩
        cases goesOn with
        | false => cases hrest
        | true =>
          obtain ⟨rounds, counter', m₂, hlt, hrounds, hin', rfl⟩ := ih.mp hrest
          exact ⟨rounds + 1, counter', m₂, Nat.succ_lt_succ hlt, .succ hin hbody hrounds, hin', rfl⟩
      · cases hmeets
    · rintro ⟨rounds, counter', m₁, hlt, hrounds, hin', rfl⟩
      cases hrounds with
      | zero =>
        rw [if_pos hin']
        exact .inl rfl
      | succ hin hbody hrounds =>
        rw [if_pos hin]
        exact .inr ⟨true, _, hbody,
          ih.mpr ⟨_, counter', m₁, Nat.lt_of_succ_lt_succ hlt, hrounds, hin', rfl⟩⟩

end Plan

/-! ## Events of nodes -/

section

variable {settings : Settings} {k : Nat} {site : Site} {scope : ScopeId} {m : Machine}
    {event : Event}

/-- A counting loop whose bounds are known meets a step of zero, or its body. -/
theorem Plan.meets_forLoop_iff {name : String} {x y z : Float} {position : Nat} {body : Node}
    {span : Span} :
    (Plan.forLoop name x y z position body span k).Meets settings k site scope m event ↔
      (z == 0.0) = true ∧ event = .error ⟨.zeroStep, some span⟩ m ∨
      (z == 0.0) = false ∧ ∃ rounds counter m₁, rounds < k ∧
        ForRounds scope name y z (eval settings k body (site.child position) scope) rounds x m
          counter m₁ ∧
        inRange counter y z ∧
        event = .stage [.loop scope name]
          (.node k body (site.child position) scope (m₁.counting scope name counter)) := by
  rw [Plan.forLoop]
  cases z == 0.0 with
  | true => simp [Plan.meets_raise_iff]
  | false =>
    -- The rounds run inside the construct that takes the variable away, which the event is wrapped
    -- in.
    simp only [Bool.false_eq_true, if_false, false_and, false_or, true_and, Plan.Meets,
      Plan.meets_forRounds_iff]
    constructor
    · rintro ⟨inner, ⟨rounds, counter, m₁, hlt, hrounds, hin, rfl⟩, rfl⟩
      exact ⟨rounds, counter, m₁, hlt, hrounds, hin, rfl⟩
    · rintro ⟨rounds, counter, m₁, hlt, hrounds, hin, rfl⟩
      exact ⟨_, ⟨rounds, counter, m₁, hlt, hrounds, hin, rfl⟩, rfl⟩

/-- A counting loop meets its bounds, and then what it meets with them. -/
theorem Stage.meets_forLoop_iff {name : String} {first last body : Node} {step : Option Node}
    {span : Span} :
    (Stage.node (k + 1) ⟨.forLoop name first last step body, span⟩ site scope m).Meets settings
        event ↔
      ((⟨.forLoop name first last step body, span⟩ : Node).plan settings k site).Meets settings k
        site scope m event := by
  -- Without a step the plan asks for two numbers, with one for three.
  cases step with
  | none =>
    simp only [Node.plan, Plan.meets_number_iff, Plan.meets_forLoop_iff]
    constructor
    · rintro (h | h)
      · cases h with
        | first => exact .inl rfl
        | last hfirst => exact .inr (.inr ⟨_, _, hfirst, .inl rfl⟩)
        | forBody hbounds hz hn hrounds hin =>
          obtain ⟨hfirst, hlast, hstep⟩ := hbounds
          cases hstep
          exact .inr (.inr ⟨_, _, hfirst, .inr (.inr ⟨_, _, hlast,
            .inr ⟨hz, _, _, _, hn, hrounds, hin, rfl⟩⟩)⟩)
      · cases h with
        | first hfirst hv => exact .inr (.inl ⟨_, _, hfirst, hv, rfl⟩)
        | last hfirst hlast hv =>
          exact .inr (.inr ⟨_, _, hfirst, .inr (.inl ⟨_, _, hlast, hv, rfl⟩)⟩)
        | zeroStep hbounds hz =>
          obtain ⟨hfirst, hlast, hstep⟩ := hbounds
          cases hstep
          exact .inr (.inr ⟨_, _, hfirst, .inr (.inr ⟨_, _, hlast, .inl ⟨hz, rfl⟩⟩)⟩)
    · rintro (rfl | ⟨v, m₁, hfirst, hv, rfl⟩ | ⟨x, m₁, hfirst, rfl | ⟨v, m₂, hlast, hv, rfl⟩ |
        ⟨y, m₂, hlast, ⟨hz, rfl⟩ | ⟨hz, n, counter, m₃, hn, hrounds, hin, rfl⟩⟩⟩)
      · exact .inside .first
      · exact .raises (.first hfirst hv)
      · exact .inside (.last hfirst)
      · exact .raises (.last hfirst hlast hv)
      · exact .raises (.zeroStep ⟨hfirst, hlast, rfl⟩ hz)
      · exact .inside (.forBody ⟨hfirst, hlast, rfl⟩ hz hn hrounds hin)
  | some step =>
    simp only [Node.plan, Plan.meets_number_iff, Plan.meets_forLoop_iff]
    constructor
    · rintro (h | h)
      · cases h with
        | first => exact .inl rfl
        | last hfirst => exact .inr (.inr ⟨_, _, hfirst, .inl rfl⟩)
        | step hfirst hlast =>
          exact .inr (.inr ⟨_, _, hfirst, .inr (.inr ⟨_, _, hlast, .inl rfl⟩)⟩)
        | forBody hbounds hz hn hrounds hin =>
          exact .inr (.inr ⟨_, _, hbounds.first, .inr (.inr ⟨_, _, hbounds.last,
            .inr (.inr ⟨_, _, hbounds.step, .inr ⟨hz, _, _, _, hn, hrounds, hin, rfl⟩⟩)⟩)⟩)
      · cases h with
        | first hfirst hv => exact .inr (.inl ⟨_, _, hfirst, hv, rfl⟩)
        | last hfirst hlast hv =>
          exact .inr (.inr ⟨_, _, hfirst, .inr (.inl ⟨_, _, hlast, hv, rfl⟩)⟩)
        | step hfirst hlast hstep hv =>
          exact .inr (.inr ⟨_, _, hfirst, .inr (.inr ⟨_, _, hlast,
            .inr (.inl ⟨_, _, hstep, hv, rfl⟩)⟩)⟩)
        | zeroStep hbounds hz =>
          exact .inr (.inr ⟨_, _, hbounds.first, .inr (.inr ⟨_, _, hbounds.last,
            .inr (.inr ⟨_, _, hbounds.step, .inl ⟨hz, rfl⟩⟩)⟩)⟩)
    · rintro (rfl | ⟨v, m₁, hfirst, hv, rfl⟩ | ⟨x, m₁, hfirst, rfl | ⟨v, m₂, hlast, hv, rfl⟩ |
        ⟨y, m₂, hlast, rfl | ⟨v, m₃, hstep, hv, rfl⟩ |
          ⟨z, m₃, hstep, ⟨hz, rfl⟩ | ⟨hz, n, counter, m₄, hn, hrounds, hin, rfl⟩⟩⟩⟩)
      · exact .inside .first
      · exact .raises (.first hfirst hv)
      · exact .inside (.last hfirst)
      · exact .raises (.last hfirst hlast hv)
      · exact .inside (.step hfirst hlast)
      · exact .raises (.step hfirst hlast hstep hv)
      · exact .raises (.zeroStep ⟨hfirst, hlast, hstep⟩ hz)
      · exact .inside (.forBody ⟨hfirst, hlast, hstep⟩ hz hn hrounds hin)

/-- What a node meets is what its plan meets. -/
theorem Stage.meets_node_iff {node : Node} :
    (Stage.node (k + 1) node site scope m).Meets settings event ↔
      (node.plan settings k site).Meets settings k site scope m event := by
  obtain ⟨form, span⟩ := node
  cases form with
  -- Nodes without parts meet nothing, and no constructor of `Inside` or `Raises` speaks of them.
  | number | text | null =>
    simp only [Node.plan, Plan.Meets, iff_false]
    rintro (⟨⟨⟩⟩ | ⟨⟨⟩⟩)
  | breaking | continuing =>
    simp only [Node.plan, Plan.Meets, reduceCtorEq, false_and, exists_false, iff_false]
    rintro (⟨⟨⟩⟩ | ⟨⟨⟩⟩)
  | var name =>
    simp only [Node.plan, Plan.Meets]
    constructor
    · rintro (⟨⟨⟩⟩ | h)
      cases h with
      | undefined hstrict hnone =>
        simp only [hnone, hstrict, if_true]
        exact Plan.meets_raise_iff.mpr rfl
    · intro h
      -- Only a name that is not found, and only where that is an error, raises one.
      cases hvalue : m.scopes.get? scope name with
      | some v =>
        simp only [hvalue] at h
        cases h
      | none =>
        simp only [hvalue] at h
        split at h
        · next hstrict =>
          cases Plan.meets_raise_iff.mp h
          exact .raises (.undefined hstrict hvalue)
        · cases h
  | list items =>
    simp only [Node.plan, Plan.meets_each_iff, Plan.Meets, and_false, exists_false, or_false,
      Nat.zero_add]
    constructor
    · rintro (h | ⟨⟨⟩⟩)
      cases h with
      | item hitems hbefore => exact ⟨_, _, _, hitems, _, _, hbefore, rfl⟩
    · rintro ⟨before, item, after, hitems, values, m₁, hbefore, rfl⟩
      exact .inside (.item hitems hbefore)
  | assign name value =>
    simp only [Node.plan, Plan.Meets, and_false, exists_false, or_false]
    constructor
    · rintro (⟨⟨⟩⟩ | ⟨⟨⟩⟩)
      rfl
    · rintro rfl
      exact .inside .assigned
  -- The right operand comes first.
  | binary left op right =>
    simp only [Node.plan, Plan.Meets, Plan.meets_ofExcept_iff]
    constructor
    · rintro (h | h)
      · cases h with
        | right => exact .inl rfl
        | left hright => exact .inr ⟨_, _, hright, .inl rfl⟩
      · cases h with
        | binary hright hleft hfault =>
          exact .inr ⟨_, _, hright, .inr ⟨_, _, hleft, _, hfault, rfl⟩⟩
    · rintro (rfl | ⟨w, m₁, hright, rfl | ⟨v, m₂, hleft, fault, hfault, rfl⟩⟩)
      · exact .inside .right
      · exact .inside (.left hright)
      · exact .raises (.binary hright hleft hfault)
  | unary op operand =>
    simp only [Node.plan, Plan.Meets, Plan.meets_ofExcept_iff]
    constructor
    · rintro (⟨⟨⟩⟩ | h)
      · exact .inl rfl
      · cases h with
        | unary hoperand hfault => exact .inr ⟨_, _, hoperand, _, hfault, rfl⟩
    · rintro (rfl | ⟨v, m₁, hoperand, fault, hfault, rfl⟩)
      · exact .inside .operand
      · exact .raises (.unary hoperand hfault)
  | ternary cond yes no =>
    simp only [Node.plan, Plan.Meets]
    constructor
    · rintro (h | ⟨⟨⟩⟩)
      cases h with
      | cond => exact .inl rfl
      | yes hcond htrue =>
        refine .inr ⟨_, _, hcond, ?_⟩
        rw [if_pos htrue]
        exact .inl rfl
      | no hcond hfalse =>
        refine .inr ⟨_, _, hcond, ?_⟩
        rw [hfalse, if_neg Bool.false_ne_true]
        exact .inl rfl
    · rintro (rfl | ⟨v, m₁, hcond, hrest⟩)
      · exact .inside .cond
      split at hrest
      · next htrue =>
        cases Plan.meets_part_done_iff.mp hrest
        exact .inside (.yes hcond htrue)
      · next hfalse =>
        cases Plan.meets_part_done_iff.mp hrest
        exact .inside (.no hcond (Bool.eq_false_iff.mpr hfalse))
  | index target place =>
    simp only [Node.plan, Plan.Meets, Plan.meets_ofExcept_iff]
    constructor
    · rintro (h | h)
      · cases h with
        | target => exact .inl rfl
        | place htarget => exact .inr ⟨_, _, htarget, .inl rfl⟩
      · cases h with
        | index htarget hplace hfault =>
          exact .inr ⟨_, _, htarget, .inr ⟨_, _, hplace, _, hfault, rfl⟩⟩
    · rintro (rfl | ⟨v, m₁, htarget, rfl | ⟨w, m₂, hplace, fault, hfault, rfl⟩⟩)
      · exact .inside .target
      · exact .inside (.place htarget)
      · exact .raises (.index htarget hplace hfault)
  | ifElse arms otherwise =>
    simp only [Node.plan, Plan.meets_choose_iff, Nat.zero_add]
    constructor
    · rintro (h | ⟨⟨⟩⟩)
      cases h with
      | armCond harms hbefore => exact .inl ⟨_, _, _, _, harms, hbefore, .inl rfl⟩
      | armBody harms hbefore hcond htrue =>
        exact .inl ⟨_, _, _, _, harms, hbefore, .inr ⟨_, _, hcond, htrue, rfl⟩⟩
      | otherwise harms => exact .inr ⟨_, _, rfl, harms, rfl⟩
    · rintro (⟨before, arm, after, m₁, harms, hbefore, rfl | ⟨v, m₂, hcond, htrue, rfl⟩⟩ |
        ⟨body, m₁, rfl, harms, rfl⟩)
      · exact .inside (.armCond harms hbefore)
      · exact .inside (.armBody harms hbefore hcond htrue)
      · exact .inside (.otherwise harms)
  | whileLoop cond body =>
    simp only [Node.plan, Plan.meets_whileLoop_iff]
    constructor
    · rintro (h | ⟨⟨⟩⟩)
      cases h with
      | whileCond hn hrounds => exact ⟨_, _, hn, hrounds, .inl rfl⟩
      | whileBody hn hrounds hcond htrue =>
        exact ⟨_, _, hn, hrounds, .inr ⟨_, _, hcond, htrue, rfl⟩⟩
    · rintro ⟨n, m₁, hn, hrounds, rfl | ⟨v, m₂, hcond, htrue, rfl⟩⟩
      · exact .inside (.whileCond hn hrounds)
      · exact .inside (.whileBody hn hrounds hcond htrue)
  | forLoop name first last step body => exact meets_forLoop_iff
  | function definition =>
    obtain ⟨name, params, body, isExpression⟩ := definition
    cases name <;>
      · simp only [Node.plan, Plan.Meets, iff_false]
        rintro (⟨⟨⟩⟩ | ⟨⟨⟩⟩)
  | call callee args =>
    simp only [Node.plan, Plan.Meets, Plan.meets_each_iff]
    constructor
    · rintro (h | ⟨⟨⟩⟩)
      cases h with
      | callee => exact .inl rfl
      | argument hcallee hargs hbefore =>
        exact .inr ⟨_, _, hcallee, .inl ⟨_, _, _, hargs, _, _, hbefore, rfl⟩⟩
      | calls hcallee hargs => exact .inr ⟨_, _, hcallee, .inr ⟨_, _, hargs, rfl⟩⟩
    · rintro (rfl | ⟨v, m₁, hcallee,
        ⟨before, arg, after, hargs, values, m₂, hbefore, rfl⟩ | ⟨values, m₂, hargs, rfl⟩⟩)
      · exact .inside .callee
      · exact .inside (.argument hcallee hargs hbefore)
      · exact .inside (.calls hcallee hargs)
  | returning value =>
    cases value with
    | none =>
      simp only [Node.plan, Plan.Meets, reduceCtorEq, false_and, exists_false, iff_false]
      rintro (⟨⟨⟩⟩ | ⟨⟨⟩⟩)
    | some value =>
      simp only [Node.plan, Plan.Meets, reduceCtorEq, false_and, exists_false, and_false, or_false]
      constructor
      · rintro (⟨⟨⟩⟩ | ⟨⟨⟩⟩)
        rfl
      · rintro rfl
        exact .inside .returned
  | block statements =>
    simp only [Node.plan, Plan.meets_sequence_iff, Nat.zero_add]
    constructor
    · rintro (h | ⟨⟨⟩⟩)
      cases h with
      | statement hstatements hbefore => exact ⟨_, _, _, hstatements, _, _, hbefore, rfl⟩
    · rintro ⟨before, statement, after, hstatements, v, m₁, hbefore, rfl⟩
      exact .inside (.statement hstatements hbefore)

/-- A stage inside of a node is met by its plan. -/
theorem Inside.exists_meets {fuel : Nat} {node : Node} {surroundings : List Surrounding} {t : Stage}
    (h : Inside settings (.node fuel node site scope m) surroundings t) :
    ∃ k, fuel = k + 1 ∧
      (node.plan settings k site).Meets settings k site scope m (.stage surroundings t) := by
  cases fuel with
  | zero => cases h
  | succ k => exact ⟨k, rfl, Stage.meets_node_iff.mp (.inside h)⟩

end

/-! ## Errors leave everything around them -/

section

variable {settings : Settings} {k : Nat} {site : Site} {scope : ScopeId} {m m' : Machine}

/-- Behind a counting loop an event fails as it does in the loop, and the variable is unbound. -/
theorem Event.fails_leave_iff {event : Event} {name : String} {f : Failure} :
    (event.leave (.loop scope name)).Fails settings f m' ↔
      ∃ m₁, event.Fails settings f m₁ ∧
        m' = { m₁ with scopes := m₁.scopes.remove scope name } := by
  cases event with
  | stage surroundings t =>
    simp only [leave, Fails, Surrounding.passAll_append, Surrounding.leaveAll_append]
    constructor
    · rintro ⟨f₁, m₁, ht, rfl, rfl⟩
      exact ⟨_, ⟨f₁, m₁, ht, rfl, rfl⟩, rfl⟩
    · rintro ⟨_, ⟨f₁, m₁, ht, rfl, rfl⟩, rfl⟩
      exact ⟨f₁, m₁, ht, rfl, rfl⟩
  | error e m₁ =>
    constructor
    · rintro ⟨rfl, rfl⟩
      exact ⟨m₁, ⟨rfl, rfl⟩, rfl⟩
    · rintro ⟨_, ⟨rfl, rfl⟩, rfl⟩
      exact ⟨rfl, rfl⟩

/-- What an event fails with, a plan that meets it fails with. -/
theorem Plan.run_of_meets {p : Plan} {event : Event} {f : Failure}
    (h : p.Meets settings k site scope m event) (hf : event.Fails settings f m') :
    p.run (eval settings k) (Script.call settings k) site scope m = .error (.failing f) m' := by
  induction p generalizing m event m' with
  | done value => cases h
  | stop interrupt =>
    obtain ⟨e, rfl, rfl⟩ := h
    obtain ⟨rfl, rfl⟩ := hf
    rfl
  | part position node next ih =>
    rcases h with rfl | ⟨v, m₁, hnode, hrest⟩
    · obtain ⟨f, m₁, hnode, rfl, rfl⟩ := hf
      exact run_bind_of_error hnode
    · exact (run_bind_of_ok hnode).trans (ih v hrest hf)
  | round position node next ih =>
    rcases h with rfl | ⟨goesOn, m₁, hnode, hrest⟩
    · obtain ⟨f, m₁, hnode, rfl, rfl⟩ := hf
      exact run_bind_of_error (iteration_of_failing hnode)
    · exact (run_bind_of_ok hnode).trans (ih goesOn hrest hf)
  | look name next ih => exact (run_bind_of_ok rfl).trans (ih _ h hf)
  | define name value next ih => exact (run_bind_of_ok rfl).trans (ih h hf)
  | unbinding name body ih =>
    obtain ⟨inner, hinner, rfl⟩ := h
    -- The failure leaves the loop, and takes its variable away on the way out.
    obtain ⟨m₁, hfails, rfl⟩ := Event.fails_leave_iff.mp hf
    rw [run, Eval.finallyScopes, ih hinner hfails]
  | call callee args span =>
    obtain rfl := h
    obtain ⟨f, m₁, hcall, rfl, rfl⟩ := hf
    rw [run, Eval.ofCall, show Script.call settings k callee args scope m = _ from hcall]
    rfl

/-- A round fails only with what its body fails with. -/
theorem iteration_eq_failing {body : Eval Value} {f : Failure}
    (h : Eval.iteration body m = .error (.failing f) m') : body m = .error (.failing f) m' := by
  unfold Eval.iteration at h
  cases hbody : body m with
  | ok v m₁ =>
    rw [hbody] at h
    cases h
  | error i m₁ =>
    rw [hbody] at h
    cases i with
    | failing f' =>
      cases h
      rfl
    | breaking | continuing | returning => cases h

/-- A plan that fails with an error meets an event that does. -/
theorem Plan.exists_meets_of_run {p : Plan} {e : RuntimeError}
    (h : p.run (eval settings k) (Script.call settings k) site scope m
      = .error (.failing (.error e)) m') :
    ∃ event, p.Meets settings k site scope m event ∧ event.Fails settings (.error e) m' := by
  induction p generalizing m m' with
  | done value => cases h
  | stop interrupt =>
    cases h
    exact ⟨.error e m, ⟨e, rfl, rfl⟩, rfl, rfl⟩
  -- Either the part fails itself, or it comes to a value and the rest of the plan fails.
  | part position node next ih =>
    rcases run_bind_eq_error h with hnode | ⟨v, m₁, hnode, hrest⟩
    · exact ⟨.stage [] _, .inl rfl, _, _, hnode, rfl, rfl⟩
    · obtain ⟨event, hmeets, hfails⟩ := ih v hrest
      exact ⟨event, .inr ⟨v, m₁, hnode, hmeets⟩, hfails⟩
  | round position node next ih =>
    rcases run_bind_eq_error h with hnode | ⟨goesOn, m₁, hnode, hrest⟩
    · exact ⟨.stage [] _, .inl rfl, _, _, iteration_eq_failing hnode, rfl, rfl⟩
    · obtain ⟨event, hmeets, hfails⟩ := ih goesOn hrest
      exact ⟨event, .inr ⟨goesOn, m₁, hnode, hmeets⟩, hfails⟩
  | look name next ih => exact ih _ ((run_bind_of_ok rfl).symm.trans h)
  | define name value next ih => exact ih ((run_bind_of_ok rfl).symm.trans h)
  | unbinding name body ih =>
    rw [run, Eval.finallyScopes] at h
    split at h
    · cases h
    · next hbody =>
      cases h
      obtain ⟨event, hmeets, hfails⟩ := ih hbody
      exact ⟨_, ⟨event, hmeets, rfl⟩, Event.fails_leave_iff.mpr ⟨_, hfails, rfl⟩⟩
  | call callee args span =>
    rw [run, Eval.ofCall] at h
    split at h
    · cases h
    · next f m₁ hcall =>
      injection h with hf hm
      exact ⟨_, rfl, f, m₁, hcall, (Interrupt.failing.inj hf).symm, hm.symm⟩

/-- What a stage fails with, the stages around it fail with. -/
theorem Fails.of_inside {s t : Stage} {surroundings : List Surrounding}
    (hinside : Inside settings s surroundings t) {f : Failure} (h : Fails settings t f m') :
    Fails settings s (Surrounding.passAll surroundings f)
      (Surrounding.leaveAll surroundings m') := by
  cases s with
  | node fuel node site scope m =>
    obtain ⟨k, rfl, hmeets⟩ := hinside.exists_meets
    rw [Fails, eval_succ, evalNode_eq_run]
    exact Plan.run_of_meets hmeets ⟨f, m', h, rfl, rfl⟩
  | call fuel callee args scope m =>
    cases hinside with
    | body hargs hdepth =>
      rw [Fails, call_succ]
      exact callFunction_of_error hargs hdepth h nofun
    -- The callbacks before the one that fails have come to values, so that it is the one `map`
    -- fails in.
    | @mapped k _ _ m₁ items fn before item after v hfn hitems hbefore =>
      subst hitems
      have hfail : Builtin.mapFrom (call settings k) fn m.scopes.size [] (before ++ item :: after) _
          = _ :=
        (folds_mapFrom _ _ fn).of_error hbefore fun _ _ => h
      rw [Fails, call_succ, callValue, Builtin.run, mapCall_of_isCallable hfn, Call.inChild, hfail]
      rfl
    | @reduced k _ _ m₁ items fn initial before item after v hfn hitems hbefore =>
      subst hitems
      have hfail : Builtin.reduceFrom (call settings k) fn m.scopes.size initial
          (before ++ item :: after) _ = _ :=
        (folds_reduceFrom _ _ fn).of_error hbefore fun s' hs' => by rw [hs']; exact h
      rw [Fails, call_succ, callValue, Builtin.run, reduceCall_of_isCallable hfn, Call.inChild,
        hfail]
      rfl

end

end Script
