/-!
# Loops that need not end

The body of a loop says whether there is another turn; the result `none` is a
turn that goes wrong.  `run` executes a loop with fuel.  `Ends` is the
derivation of a result, so that facts about loops that end are proved by
induction on the turns.
-/

namespace Foundation.Loop

universe u v

/-- How one turn ends. -/
inductive Turn (σ : Type u) (ρ : Type v)
  | again (state : σ)
  | done (result : ρ)

abbrev Body (σ : Type u) (ρ : Type v) := σ → Option (Turn σ ρ)

variable {σ : Type u} {ρ : Type v}

/-- The result, if the loop ends with one before the fuel does. -/
def run (body : Body σ ρ) : Nat → σ → Option ρ
  | 0, _ => none
  | fuel + 1, state =>
      match body state with
      | none => none
      | some (.again next) => run body fuel next
      | some (.done result) => some result

inductive Ends (body : Body σ ρ) : σ → ρ → Prop
  | done {state : σ} {result : ρ} : body state = some (.done result) → Ends body state result
  | again {state next : σ} {result : ρ} :
      body state = some (.again next) → Ends body next result → Ends body state result

/-- A loop ends with a result exactly when some fuel is enough for it. -/
theorem ends_iff {body : Body σ ρ} {state : σ} {result : ρ} :
    Ends body state result ↔ ∃ fuel, run body fuel state = some result := by
  constructor
  · intro ends
    induction ends with
    | done bodyEq =>
        refine ⟨1, ?_⟩
        simp only [run, bodyEq]
    | again bodyEq _ inductionHypothesis =>
        obtain ⟨fuel, runs⟩ := inductionHypothesis
        refine ⟨fuel + 1, ?_⟩
        simp only [run, bodyEq, runs]
  · rintro ⟨fuel, runs⟩
    induction fuel generalizing state with
    | zero => contradiction
    | succ fuel inductionHypothesis =>
        unfold run at runs
        split at runs
        · contradiction
        · rename_i next bodyEq
          exact .again bodyEq (inductionHypothesis runs)
        · rename_i ended bodyEq
          cases runs
          exact .done bodyEq

/-- A loop does not end from where every turn leads to another one. -/
theorem Ends.not_of_forever {body : Body σ ρ} (forever : σ → Prop)
    (turns : ∀ state, forever state → ∃ next, body state = some (.again next) ∧ forever next)
    {state : σ} (held : forever state) (result : ρ) : ¬ Ends body state result := by
  intro ends
  induction ends with
  | done bodyEq =>
      obtain ⟨next, againEq, -⟩ := turns _ held
      rw [bodyEq] at againEq
      exact nomatch againEq
  | again bodyEq _ inductionHypothesis =>
      obtain ⟨next, againEq, heldNext⟩ := turns _ held
      cases bodyEq.symm.trans againEq
      exact inductionHypothesis heldNext

/-- A loop all of whose turns either lower a measure or end well does end well,
given more fuel than the measure. -/
theorem run_total (body : Body σ ρ) (holds : σ → Prop) (post : ρ → Prop) (measure : σ → Nat)
    (turns : ∀ state, holds state →
      (∃ next, body state = some (.again next) ∧ holds next ∧ measure next < measure state) ∨
      ∃ result, body state = some (.done result) ∧ post result)
    (fuel : Nat) (state : σ) (held : holds state) (enough : measure state < fuel) :
    ∃ result, run body fuel state = some result ∧ post result := by
  induction fuel generalizing state with
  | zero => exact absurd enough (Nat.not_lt_zero _)
  | succ fuel inductionHypothesis =>
      rcases turns state held with ⟨next, againEq, heldNext, lower⟩ | ⟨result, doneEq, good⟩
      · simp only [run, againEq]
        exact inductionHypothesis next heldNext
          (Nat.lt_of_lt_of_le lower (Nat.le_of_lt_succ enough))
      · simp only [run, doneEq]
        exact ⟨result, rfl, good⟩

/-- What every turn keeps, and every last turn establishes, holds of the
result. -/
theorem run_post {body : Body σ ρ} (holds : σ → Prop) (post : ρ → Prop)
    (again : ∀ state next, holds state → body state = some (.again next) → holds next)
    (done : ∀ state result, holds state → body state = some (.done result) → post result)
    {fuel : Nat} {state : σ} {result : ρ} (held : holds state)
    (runs : run body fuel state = some result) : post result := by
  induction fuel generalizing state with
  | zero => contradiction
  | succ fuel inductionHypothesis =>
      unfold run at runs
      split at runs
      · contradiction
      · rename_i next bodyEq
        exact inductionHypothesis (again _ _ held bodyEq) runs
      · rename_i ended bodyEq
        cases runs
        exact done _ _ held bodyEq

/-- A loop whose turns lower a measure ends within that much fuel, if it ends
at all. -/
theorem Ends.run {body : Body σ ρ} (holds : σ → Prop) (measure : σ → Nat)
    (lower : ∀ state next, holds state → body state = some (.again next) →
      holds next ∧ measure next < measure state)
    {fuel : Nat} {state : σ} {result : ρ} (ends : Ends body state result) (held : holds state)
    (enough : measure state < fuel) : Loop.run body fuel state = some result := by
  induction ends generalizing fuel with
  | done bodyEq =>
      cases fuel with
      | zero => exact absurd enough (Nat.not_lt_zero _)
      | succ fuel => simp only [Loop.run, bodyEq]
  | again bodyEq _ inductionHypothesis =>
      cases fuel with
      | zero => exact absurd enough (Nat.not_lt_zero _)
      | succ fuel =>
          obtain ⟨heldNext, lowered⟩ := lower _ _ held bodyEq
          simp only [Loop.run, bodyEq]
          exact inductionHypothesis heldNext
            (Nat.lt_of_lt_of_le lowered (Nat.le_of_lt_succ enough))

/-- With this turn the loop comes to a result with a property. -/
def Leads (body : Body σ ρ) (turn : Option (Turn σ ρ)) (post : ρ → Prop) : Prop :=
  ∃ result, post result ∧
    (turn = some (.done result) ∨ ∃ state, turn = some (.again state) ∧ Ends body state result)

section Leads

variable {body : Body σ ρ} {post : ρ → Prop}

theorem Leads.done {result : ρ} (good : post result) : Leads body (some (.done result)) post :=
  ⟨result, good, Or.inl rfl⟩

theorem Leads.ends {state : σ} (leads : Leads body (body state) post) :
    ∃ result, Ends body state result ∧ post result := by
  obtain ⟨result, good, doneEq | ⟨next, againEq, ends⟩⟩ := leads
  · exact ⟨result, .done doneEq, good⟩
  · exact ⟨result, .again againEq ends, good⟩

theorem Leads.again {state : σ} (leads : Leads body (body state) post) :
    Leads body (some (.again state)) post := by
  obtain ⟨result, ends, good⟩ := leads.ends
  exact ⟨result, good, Or.inr ⟨state, rfl, ends⟩⟩

end Leads

end Foundation.Loop
