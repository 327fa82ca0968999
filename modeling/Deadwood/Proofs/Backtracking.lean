import Deadwood.Proofs.Operands
import Deadwood.Proofs.ParsedJumps

/-!
# Going back leaves no trace

Going back to a checkpoint does not put the scopes right.  It need not: every production leaves the scopes as they
were, whatever it reports, because it undoes each change with what it has read before.  And no fault that was found
before is lost.  So nothing has happened where the parser has looked ahead, or has tried to read an arrow function and
found none.
-/

namespace Deadwood.Parser

variable {α β : Type} {m : Parser α} {k : α → Parser (Option β)}

/-! ### Parsers that find nothing -/

/-- The parser leaves the scopes as they were. -/
def Balanced (m : Parser α) : Prop := ∀ s, (m s).2.scopes = s.scopes

/-- From `s` the parser comes back to `s₀` if it finds nothing, where only a bound may have been reached. -/
def Retreats (s₀ : State) (m : Parser (Option α)) (s : State) : Prop :=
  (m s).1 = none → (m s).2 = { s₀ with starved := (m s).2.starved }

/-- What a parser does after the checkpoint of `s₀`, where the scopes are as they were and no fault was lost. -/
def Returns (s₀ : State) (m : Parser (Option α)) : Prop :=
  ∀ s : State, s.scopes = s₀.scopes → s₀.faults <+: s.faults → Retreats s₀ m s

namespace Returns

variable {s₀ : State}

theorem bind (hm : m.Steady) (hk : ∀ a, Returns s₀ (k a)) : Returns s₀ (m >>= k) :=
  fun s hc hf => hk _ _ ((hm.scopes s).trans hc) (hf.trans (hm.faults s))

theorem get {k : State → Parser (Option β)} (hk : ∀ s, Returns s₀ (k s)) : Returns s₀ (get >>= k) :=
  fun s => hk s s

theorem ite {n n' : Parser (Option α)} {b : Prop} [Decidable b] (hn : Returns s₀ n) (hn' : Returns s₀ n') :
    Returns s₀ (if b then n else n') := by
  split
  · exact hn
  · exact hn'

/-- Something is found. -/
theorem found (m : Parser α) : Returns s₀ (do return some (← m)) := fun _ _ _ h => nomatch h

theorem restore : Returns s₀ (do restore s₀.checkpoint; return none : Parser (Option α)) := by
  intro s hc hf _
  rw [run_bind, restore_checkpoint hc hf]
  rfl

end Returns

/-- The parser finds something, or leaves the state as it was. -/
def Attempts (m : Parser (Option α)) : Prop := ∀ s, Retreats s m s

namespace Attempts

theorem none : Attempts (pure none : Parser (Option α)) := fun _ _ => rfl

theorem found (m : Parser α) : Attempts (do return some (← m)) := fun _ h => nomatch h

/-- The parser looks at its state first. -/
theorem read (hm : ∀ s, (m s).2 = s) (hk : ∀ a, Attempts (k a)) : Attempts (m >>= k) := by
  intro s
  have hrun : (m >>= k) s = k (m s).1 s := congrArg (k (m s).1) (hm s)
  rw [Retreats, hrun]
  exact hk _ s

theorem ite {n n' : Parser (Option α)} {b : Prop} [Decidable b] (hn : Attempts n) (hn' : Attempts n') :
    Attempts (if b then n else n') := by
  split
  · exact hn
  · exact hn'

theorem checkpoint {k : Checkpoint → Parser (Option α)} (hk : ∀ s₀, Returns s₀ (k s₀.checkpoint)) :
    Attempts (checkpoint >>= k) :=
  fun s => hk s s rfl List.prefix_rfl

end Attempts

/-! ### Arrow functions -/

theorem isBindingName_run (s : State) : (isBindingName s).2 = s := by
  unfold isBindingName
  simp only [run_bind]
  generalize (token s).1.kind = k
  split <;> rfl

section Arrows

variable {sub : Sub} {I : Ident → Prop} (h : sub.Sounds I)

include h

theorem listArrow?_attempts (async : Bool) : Attempts (listArrow? sub async) := by
  refine .checkpoint fun s₀ => .bind (arrowParameters_yields h async).steady fun r => .get fun s => ?_
  exact .ite .restore (.found _)

/-- An arrow function after its name is read only where there is one; else the parser has to go back, or has read
nothing yet. -/
theorem arrow?_attempts : Attempts (arrow? sub) := by
  refine .read isBindingName_run fun _ => .ite ?_ (.read (fun _ => rfl) fun _ => .ite (listArrow?_attempts h false) .none)
  refine .read (fun s => by rw [run_peek]) fun t => .read (fun _ => rfl) fun _ => ?_
  refine .ite (listArrow?_attempts h true) (.ite (.checkpoint fun s₀ => ?_) (.ite .none ?_))
  · refine .bind next_steady fun _ => .bind identifier_steady fun param => .bind token_steady fun arrow => ?_
    exact .ite (.found _) .restore
  · intro s hnone
    cases hnone

end Arrows

/-! ### All productions -/

theorem Yields.balanced {P : Context → α → Prop} (h : m.Yields P) : Balanced m := h.scopes

/-- Every production leaves the scopes as they were, whatever it reports.  Where no arrow function is found the whole
state is as it was, and so it is where the parser has looked ahead. -/
theorem productions_balanced (n : Nat) :
    (∀ g, Balanced (runGoal n g)) ∧ Balanced (expression (.upTo n)) ∧ Balanced (block (.upTo n)) ∧
    (∀ declaration async, Balanced (function (.upTo n) declaration async)) ∧
    (∀ async generator, Balanced (method (.upTo n) async generator)) ∧
    (∀ decs declaration, Balanced (classLiteral (.upTo n) decs declaration)) ∧
    (∀ declaration, Balanced (decoratedClass (.upTo n) declaration)) ∧ Balanced (classElement (.upTo n)) ∧
    Balanced (moduleItem (.upTo n)) ∧ Balanced (program (.upTo n)) ∧
    (∀ s, (arrow? (.upTo n) s).1 = none →
      (arrow? (.upTo n) s).2 = { s with starved := (arrow? (.upTo n) s).2.starved }) ∧
    ∀ s, (peek s).2 = s := by
  have h : (Sub.upTo n).Sounds fun _ => True := runGoal_sounds (fun _ => trivial) n
  have hclass (decs : List Expr) (declaration : Bool) := @classLiteral_yields _ _ h decs declaration
  refine ⟨fun g => (h.goal g).balanced, (expression_yields h).balanced, (block_yields h).balanced,
    fun _ _ => (function_yields h _ _).balanced, fun _ _ => (method_yields h _ _).balanced,
    fun decs declaration => (hclass decs declaration).balanced, fun _ => (decoratedClass_yields h _).balanced,
    (classElement_yields h).balanced, (moduleItem_yields h).balanced, (program_yields h).balanced, arrow?_attempts h,
    fun s => ?_⟩
  rw [run_peek]

end Deadwood.Parser
