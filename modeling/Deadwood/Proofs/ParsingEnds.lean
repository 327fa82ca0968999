import Deadwood.Proofs.ProductionsEnd
import Deadwood.Proofs.Unbounded
import Mathlib.Tactic.DefEqTransformations

/-!
# Parsing ends

Statements and modules end as expressions do.  So the bound that `Program.parse` sets for the length of a text
is never reached, whatever the text is.
-/

namespace Deadwood

namespace Parser

variable {sub : Sub} (h : sub.Fits)

include h

/-! ### Declarations -/

omit h in
theorem isLetDeclaration_ends {R : Nat → Prop} : isLetDeclaration.Ends R never := by
  refine (isWord_ends _).seq fun _ => .ite (fun _ => peek_ends.seq fun _ => ?_) fun _ => .done
  split <;> exact .done

theorem declaration_takes : (declaration sub).Takes (Ahead sub.fuel 8) := by
  refine .after kind_ends fun _ => ?_
  extract_lets rest
  have hrest (kind : DeclKind) : (rest kind).Takes (Ahead sub.fuel 8) := by
    refine next_takes.take (T := never) fun _ => Ends.seq (P := never) ?_ fun ds => .done
    refine .manyOnward (f := fun s => !s.failed) (fun _ => rfl) (by simp) (fun ds => ?_) (Room.turns (by decide)) []
    refine (bindingElement_ends h).seq fun d => (accept_passes (by decide)).bind
      (Q := fun b r _ => r.2 = true ∧ b = false) (fun b => .pure fun _ hp => ?_) fun b r _ hmore => ?_
    · cases hp.1.symm.trans hp.2
    · cases b with
      | true => exact .inl rfl
      | false => exact .inr ⟨hmore, rfl⟩
  split
  · exact hrest _
  · refine .after (isWord_ends _) fun _ => ?_
    split
    · exact hrest _
    · exact hrest _

omit h in
theorem checkInitializers_ends {R : Nat → Prop} (kind : DeclKind) (offset : Nat) (ds : List Declarator) :
    (checkInitializers kind offset ds).Ends R never := by
  induction ds with
  | nil => exact .done
  | cons d ds ih =>
    refine .ite (fun _ => .ite (fun _ => ?_) fun _ => .ite (fun _ => ?_) fun _ => ih) fun _ => ih
    · exact (reportAt_ends _ _).seq fun _ => ih
    · exact (reportAt_ends _ _).seq fun _ => ih

theorem variableStatement_takes : (variableStatement sub).Takes (Ahead sub.fuel 8) := by
  refine .after token_ends fun t => (declaration_takes h).take (T := never) fun r => ?_
  exact (checkInitializers_ends _ _ _).seq fun _ => semicolon_ends.seq fun _ => .done

/-! ### Statements -/

theorem subStatement_ends : (subStatement sub).Ends (Room sub.fuel 8) always := by
  refine kind_ends.seq fun k => isLetDeclaration_ends.seq fun _ => ?_
  exact .option (report_ends _) (h.statement.inside (by decide))

theorem headExpr_takes : (headExpr sub).Takes (Ahead sub.fuel 8) :=
  bracketed_takes _ _ ((expression_ends h).inside (by decide))

theorem ifStatement_takes : (ifStatement sub).Takes (Ahead sub.fuel 8) := by
  refine (expect_takes _).take (T := never) fun _ => (headExpr_takes h).inside.ends.seq fun test => ?_
  refine (subStatement_ends h).seq fun yes => (accept_ends _).seq fun _ => .ite (fun _ => ?_) fun _ => .done
  exact (subStatement_ends h).seq fun no => .done

theorem loopBody_ends : (loopBody sub).Ends (Room sub.fuel 8) always := (subStatement_ends h).inSetting _ _

theorem whileStatement_takes : (whileStatement sub).Takes (Ahead sub.fuel 8) := by
  refine (expect_takes _).take (T := never) fun _ => (headExpr_takes h).inside.ends.seq fun test => ?_
  exact (loopBody_ends h).seq fun body => .done

theorem doWhileStatement_takes : (doWhileStatement sub).Takes (Ahead sub.fuel 8) := by
  refine (expect_takes _).take (T := never) fun _ => (loopBody_ends h).seq fun body => (expect_ends _).seq fun _ => ?_
  exact (headExpr_takes h).inside.ends.seq fun test => .seq (.map (accept_ends _)) fun _ => .done

theorem forHead_ends : (forHead sub).Ends (Room sub.fuel 8) never := by
  have hdecl : Ends (declaration sub >>= fun r => pure (ForHead.decl r.1 r.2)) (Room sub.fuel 8) never :=
    (declaration_takes h).inside.ends.seq fun _ => .done
  refine kind_ends.seq fun k => ?_
  split
  · exact .done
  · exact hdecl
  · exact hdecl
  · refine isLetDeclaration_ends.seq fun _ => .ite (fun _ => hdecl) fun _ => ?_
    exact ((expression_ends h).inside (by decide)).seq fun _ => .done

omit h in
theorem checkForTarget_ends {R : Nat → Prop} (start : Nat) (unclaimed : Option Nat) (head : ForHead) :
    (checkForTarget start unclaimed head).Ends R never := by
  cases head with
  | decl kind list => exact .ite (fun _ => reportAt_ends _ _) fun _ => .done
  | expr e => exact .ite (fun _ => reportAt_ends _ _) fun _ => .ite (fun _ => claim_ends _) fun _ => .done
  | empty => exact reportAt_ends _ _

theorem forEach_ends (start : Nat) (head : ForHead) (unclaimed : Option Nat) (isAwait isOf : Bool) :
    (forEach sub start head unclaimed isAwait isOf).Ends (Room sub.fuel 8) never := by
  have hexpr : (expression sub).Ends (Room sub.fuel 8) always := (expression_ends h).inside (by decide)
  have hassign : sub.assignment.Ends (Room sub.fuel 8) always := h.assignment.inside (by decide)
  refine next_ends.seq fun _ => (checkForTarget_ends _ _ _).seq fun _ => ?_
  refine (Ends.withIn (P := always) (.ite (fun _ => hassign) fun _ => hexpr)).seq fun source => ?_
  refine (expect_ends _).seq fun _ => (loopBody_ends h).seq fun body => .ite (fun _ => .done) fun _ => ?_
  exact .option (reportAt_ends _ _) .done

theorem forLoop_ends (start : Nat) (head : ForHead) (isAwait : Bool) :
    (forLoop sub start head isAwait).Ends (Room sub.fuel 8) never := by
  have hexpr : (expression sub).Ends (Room sub.fuel 8) always := (expression_ends h).inside (by decide)
  have hparts : Ends (do
      let test ← if (← kind) = .semicolon then pure none else some <$> expression sub
      expect .semicolon
      let update ← if (← kind) = .rightParen then pure none else some <$> expression sub
      return (test, update)) (Room sub.fuel 8) never := by
    refine kind_ends.seq fun _ => ?_
    extract_lets rest
    have hrest (test : Option Expr) : (rest test).Ends (Room sub.fuel 8) never := by
      refine (expect_ends _).seq fun _ => kind_ends.seq fun _ => ?_
      exact .ite (fun _ => Ends.done.seq fun _ => .done) fun _ => .seq (.map hexpr) fun _ => .done
    exact .ite (fun _ => Ends.done.seq hrest) fun _ => .seq (.map hexpr) hrest
  unfold forLoop
  refine .option (reportAt_ends _ _) ?_
  beta_reduce
  extract_lets -underBinder rest
  have hrest : (rest ()).Ends (Room sub.fuel 8) never := by
    refine (expect_ends _).seq fun _ => hparts.withIn.seq fun r => (expect_ends _).seq fun _ => ?_
    exact (loopBody_ends h).seq fun body => .done
  clear_value rest
  cases head with
  | decl kind list => exact (checkInitializers_ends _ _ _).seq fun _ => hrest
  | empty => exact hrest
  | expr e => exact hrest

theorem forStatement_takes : (forStatement sub).Takes (Ahead sub.fuel 8) := by
  refine .after token_ends fun t => (expect_takes _).take (T := never) fun _ => kind_ends.seq fun _ => ?_
  extract_lets -underBinder rest
  have hrest (isAwait : Bool) : (rest isAwait).Ends (Room sub.fuel 8) never := by
    refine (expect_ends _).seq fun _ => .seq (.read id) fun s => ((forHead_ends h).inSetting _ _).seq fun head => ?_
    refine kind_ends.seq fun _ => .ite (fun _ => forEach_ends h ..) fun _ => (isWord_ends _).seq fun _ => ?_
    exact .ite (fun _ => forEach_ends h ..) fun _ => forLoop_ends h ..
  refine .ite (fun _ => context_ends.seq fun _ => .option unexpectedHere_ends ?_) fun _ => hrest false
  exact next_ends.seq fun _ => hrest true

omit h in
theorem jumpLabel_ends {R : Nat → Prop} : jumpLabel.Ends R never := by
  refine token_ends.seq fun t => .ite (fun _ => .done) fun _ => identifier_ends.seq fun label => ?_
  exact context_ends.seq fun c => .option (report_ends _) .done

omit h in
theorem continueStatement_takes {R : Nat → Prop} : continueStatement.Takes R := by
  refine (expect_takes _).seq (T := never) fun _ => jumpLabel_ends.seq fun label => context_ends.seq fun c => ?_
  exact .option (report_ends _) (semicolon_ends.seq fun _ => .done)

omit h in
theorem breakStatement_takes {R : Nat → Prop} : breakStatement.Takes R := by
  refine (expect_takes _).seq (T := never) fun _ => jumpLabel_ends.seq fun label => context_ends.seq fun c => ?_
  exact .option (report_ends _) (semicolon_ends.seq fun _ => .done)

theorem returnStatement_takes : (returnStatement sub).Takes (Ahead sub.fuel 8) := by
  refine .after context_ends fun c => .option (report_ends _) ?_
  refine (expect_takes _).take (T := never) fun _ => token_ends.seq fun t => ?_
  extract_lets rest
  have hrest (arg : Option Expr) : (rest arg).Ends (Room sub.fuel 8) never := semicolon_ends.seq fun _ => .done
  exact .ite (fun _ => Ends.done.seq hrest) fun _ => .seq (.map ((expression_ends h).inside (by decide))) hrest

theorem throwStatement_takes : (throwStatement sub).Takes (Ahead sub.fuel 8) := by
  refine (expect_takes _).take (T := never) fun _ => token_ends.seq fun t => .option (report_ends _) ?_
  exact ((expression_ends h).inside (by decide)).seq fun e => semicolon_ends.seq fun _ => .done

theorem catchParam_ends : (catchParam sub).Ends (Room sub.fuel 8) never := by
  refine (accept_ends _).seq fun _ => .ite (fun _ => ?_) fun _ => .done
  exact (h.target.inside (by decide)).seq fun p => (expect_ends _).seq fun _ => .done

theorem tryStatement_takes : (tryStatement sub).Takes (Ahead sub.fuel 8) := by
  have hblock := (block_takes h).inside.ends
  refine (expect_takes _).take (T := never) fun _ => hblock.seq fun body => (accept_ends _).seq fun _ => ?_
  extract_lets -underBinder rest
  have hrest (handler : Option (Option Pattern × List Stmt)) : (rest handler).Ends (Room sub.fuel 8) never := by
    refine (accept_ends _).seq fun _ => ?_
    extract_lets -underBinder rest
    have hrest (finalizer : Option (List Stmt)) : (rest finalizer).Ends (Room sub.fuel 8) never := by
      simp only [rest]
      split
      · exact .done
      · exact .done
      · exact (report_ends _).seq fun _ => .done
    exact .ite (fun _ => .seq (.map hblock) hrest) fun _ => Ends.done.seq hrest
  refine .ite (fun _ => (catchParam_ends h).seq fun param => ?_) fun _ => Ends.done.seq hrest
  exact .seq (.map (.map hblock)) hrest

omit h in
theorem inClause_live {s : State}
    (hs : (!s.failed && !([.caseKw, .defaultKw, .rightBrace, .eof] : List TokenKind).contains s.token.kind) = true) :
    s.token.kind ≠ .eof ∧ s.failed = false := by
  rw [Bool.and_eq_true] at hs
  refine ⟨fun heof => ?_, by simpa using hs.1⟩
  rw [heof] at hs
  cases hs.2

theorem switchCase_ends (hasDefault : Bool) : (switchCase sub hasDefault).Ends (Room sub.fuel 8) always := by
  refine kind_ends.seq fun _ => ?_
  extract_lets -underBinder isDefault rest
  have hrest (test : Option Expr) : (rest test).Ends (Room sub.fuel 8) never := by
    refine (expect_ends _).seq fun _ => Ends.seq (P := never) ?_ fun ts => .done
    refine .manyAt (fun _ => rfl) (fun _ => inClause_live) (fun ts => ?_) (Room.turns (by decide)) []
    exact h.item.first fun _ => .done
  refine .ite (fun _ => .option (report_ends _) (next_ends.first fun _ => Ends.done.seq hrest)) fun _ => ?_
  exact (expect_ends _).first fun _ => .seq (.map ((expression_ends h).inside (by decide)).withIn) hrest

theorem switchStatement_takes : (switchStatement sub).Takes (Ahead sub.fuel 8) := by
  refine (expect_takes _).take (T := never) fun _ => (headExpr_takes h).inside.ends.seq fun subject => ?_
  refine (expect_ends _).seq fun _ => Ends.seq (P := never) (.inSetting _ _ ?_) fun r => ?_
  rotate_left
  · exact (expect_ends _).seq fun _ => .done
  refine .manyAt (fun _ => rfl) (fun _ => isOpen_live) (fun r => ?_) (Room.turns (by decide)) _
  exact (switchCase_ends h _).first fun _ => .done

theorem labelledStatement_takes : (labelledStatement sub).Takes (Ahead sub.fuel 8) := by
  refine identifier_takes.take (T := never) fun label => (expect_ends _).seq fun _ => context_ends.seq fun _ => ?_
  refine .option (report_ends _) (Ends.seq (P := never) (.inLabel _ ?_) fun body => .done)
  refine kind_ends.seq fun _ => .ite (fun _ => ?_) fun _ => (subStatement_ends h).never
  exact (function_takes h _ _).inside.ends.seq fun _ => .done

theorem expressionStatement_ends : (expressionStatement sub).Ends (Room sub.fuel 6) always :=
  (expression_ends h).first fun _ => semicolon_ends.seq fun _ => .done

theorem nestedModuleItem_ends : (nestedModuleItem sub).Ends (Room sub.fuel 6) always := by
  refine peek_ends.seq fun _ => kind_ends.seq fun _ => .ite (fun _ => ?_) fun _ => expressionStatement_ends h
  exact (report_ends _).seq fun _ => next_ends.first fun _ => .done

theorem statement_ends : (statement sub).Ends (Room sub.fuel 6) always := by
  have hexpr := expressionStatement_ends h
  refine .live (c := 8) (f := fun s => s.token.kind) (fun s hs => ?_) (fun s hs => ?_) (Room.ahead (by decide))
  · rw [hs]
    exact hexpr
  split
  · exact .ahead ((block_takes h).ends.first fun _ => .done)
  · exact .ahead (next_ends.first fun _ => .done)
  · exact (variableStatement_takes h).ends.ahead
  · exact (ifStatement_takes h).ends.ahead
  · exact (forStatement_takes h).ends.ahead
  · exact (whileStatement_takes h).ends.ahead
  · exact (doWhileStatement_takes h).ends.ahead
  · exact .ahead continueStatement_takes.ends
  · exact .ahead breakStatement_takes.ends
  · exact (returnStatement_takes h).ends.ahead
  · exact (throwStatement_takes h).ends.ahead
  · exact (tryStatement_takes h).ends.ahead
  · exact (switchStatement_takes h).ends.ahead
  · exact .ahead (next_ends.first fun _ => semicolon_ends.seq fun _ => .done)
  · exact .ahead ((report_ends _).seq fun _ => next_ends.first fun _ => .done)
  · exact .ahead ((function_takes h _ _).ends.first fun _ => .done)
  · exact .ahead (unexpectedHere_ends.seq fun _ => (classLiteral_takes h _ _).ends.first fun _ => .done)
  · exact (nestedModuleItem_ends h).here
  · exact (nestedModuleItem_ends h).here
  · refine peek_ends.seq fun _ => .ite (fun _ => ?_) fun _ => hexpr.here
    exact (labelledStatement_takes h).ends.ahead
  · exact hexpr.here

theorem declarationOrStatement_ends : (declarationOrStatement sub).Ends (Room sub.fuel 7) always := by
  refine .live (c := 8) (f := fun s => s.token.kind) (fun s hs => ?_) (fun s hs => ?_) (Room.ahead (by decide))
  · rw [hs]
    exact h.statement
  split
  · exact .ahead ((function_takes h _ _).ends.first fun _ => .done)
  · exact .ahead ((classLiteral_takes h _ _).ends.first fun _ => .done)
  · exact .ahead ((decoratedClass_takes h _).ends.first fun _ => .done)
  · exact (variableStatement_takes h).ends.ahead
  · refine isLetDeclaration_ends.seq fun _ => .ite (fun _ => (variableStatement_takes h).ends.ahead) fun _ => ?_
    refine isAsyncFunction_ends.seq fun _ => .ite (fun _ => ?_) fun _ => h.statement.here
    exact (next_takes.take (T := never) fun _ => (function_takes h _ _).inside.ends.seq fun _ => .done).ends.ahead
  · exact h.statement.here

theorem item_ends : (item sub).Ends (Room sub.fuel 7) always := by
  refine (declarationOrStatement_ends h).first fun t => .seq (.read id) fun s => ?_
  split
  · exact (reportAt_ends _ _).seq fun _ => (claim_ends _).seq fun _ => .done
  · exact .done

/-! ### Modules -/

omit h in
theorem moduleSource_takes {R : Nat → Prop} : moduleSource.Takes R := by
  refine .after token_ends fun t => ?_
  split
  · exact .after (unexpected_ends t) fun _ => next_takes.seq (T := never) fun _ => .done
  · exact next_takes.seq (T := never) fun _ => .done

omit h in
theorem exportName_ends {R : Nat → Prop} : exportName.Ends R always := by
  refine token_ends.seq fun t => .option (unexpected_ends t) ?_
  exact next_ends.first fun _ => .done

omit h in
theorem importSpec_ends {R : Nat → Prop} : importSpec.Ends R always := by
  refine token_ends.seq fun t => exportName_ends.first fun _ => (isWord_ends _).seq fun _ => ?_
  refine .ite (fun _ => ?_) fun _ => ?_
  · exact next_ends.seq fun _ => identifier_ends.seq fun _ => .done
  · exact .option (reportAt_ends _ _) .done

section Bound

variable {R : Nat → Prop} {n : Nat} (hn : ∀ l, R l → l + 1 < n)

include hn

omit h in
theorem importClause_ends : (importClause n).Ends R never := by
  refine kind_ends.seq fun k => ?_
  split
  · refine next_ends.seq fun _ => (expectWord_ends _).seq fun _ => ?_
    exact identifier_ends.seq fun _ => .done
  · refine next_ends.seq fun _ => (commaList_ends _ importSpec_ends hn).seq fun _ => ?_
    exact (expect_ends _).seq fun _ => .done
  · exact unexpectedHere_ends.seq fun _ => .done

omit h hn in
theorem fromSource_ends : fromSource.Ends R never := by
  refine (expectWord_ends _).seq fun _ => moduleSource_takes.ends.seq fun _ => ?_
  exact semicolon_ends.seq fun _ => .done

omit h in
theorem importDeclaration_ends : (importDeclaration n).Ends R always := by
  have hsource (specs : List ImportSpec) : Ends (do return Stmt.importDecl specs (← fromSource)) R never :=
    fromSource_ends.seq fun _ => .done
  refine (expect_ends _).first fun _ => kind_ends.seq fun _ => .ite (fun _ => ?_) fun _ => ?_
  · exact moduleSource_takes.ends.seq fun _ => semicolon_ends.seq fun _ => .done
  refine isBindingName_ends.seq fun _ => .ite (fun _ => identifier_ends.seq fun _ => ?_) fun _ => ?_
  · refine (accept_ends _).seq fun _ => .ite (fun _ => ?_) fun _ => hsource _
    exact (importClause_ends hn).seq fun _ => hsource _
  · exact (importClause_ends hn).seq fun _ => hsource _

omit h hn in
theorem exportSpec_ends : exportSpec.Ends R always := by
  refine token_ends.seq fun t => exportName_ends.first fun _ => (isWord_ends _).seq fun _ => ?_
  refine .ite (fun _ => ?_) fun _ => .done
  exact next_ends.seq fun _ => exportName_ends.seq fun _ => .done

omit h hn in
theorem checkLocals_ends (ts : List Token) : (checkLocals ts).Ends R never := by
  induction ts with
  | nil => exact .done
  | cons t ts ih =>
    unfold checkLocals
    exact .option (unexpected_ends t) ih

omit h in
theorem exportSpecifiers_ends : (exportSpecifiers n).Ends R always := by
  refine (expect_ends _).first fun _ => (commaList_ends _ exportSpec_ends hn).seq fun specs => ?_
  refine (expect_ends _).seq fun _ => (isWord_ends _).seq fun _ => ?_
  extract_lets rest
  have hrest (source : Option StringLit) : (rest source).Ends R never := semicolon_ends.seq fun _ => .done
  refine .ite (fun _ => next_ends.seq fun _ => .seq (.map moduleSource_takes.ends) hrest) fun _ => ?_
  exact (checkLocals_ends _).seq fun _ => Ends.done.seq hrest

omit h hn in
theorem exportNamespace_ends : exportNamespace.Ends R always := by
  refine next_ends.first fun _ => (isWord_ends _).seq fun _ => ?_
  extract_lets rest
  have hrest (name : Option String) : (rest name).Ends R never := fromSource_ends.seq fun _ => .done
  exact .ite (fun _ => next_ends.seq fun _ => .seq (.map exportName_ends) hrest) fun _ => Ends.done.seq hrest

end Bound

theorem exportDefault_ends : (exportDefault sub).Ends (Room sub.fuel 8) never := by
  refine kind_ends.seq fun k => ?_
  split
  · exact (function_takes h _ _).inside.ends.seq fun _ => .done
  · exact (classLiteral_takes h _ _).inside.ends.seq fun _ => .done
  · refine ((decorators_ends h).weaken Room.behind).seq fun decs => ?_
    exact (classLiteral_takes h _ _).inside.ends.seq fun _ => .done
  · refine isAsyncFunction_ends.seq fun _ => .ite (fun _ => next_ends.seq fun _ => ?_) fun _ => ?_
    · exact (function_takes h _ _).inside.ends.seq fun _ => .done
    · exact (h.assignment.inside (by decide)).seq fun e => semicolon_ends.seq fun _ => .done

theorem plainExport_ends : (plainExport sub).Ends (Room sub.fuel 8) never := by
  have hvar : Ends (do return Stmt.exportDecl (← variableStatement sub)) (Room sub.fuel 8) never :=
    (variableStatement_takes h).inside.ends.seq fun _ => .done
  refine kind_ends.seq fun k => ?_
  split
  · exact next_ends.seq fun _ => exportDefault_ends h
  · exact exportNamespace_ends.never
  · exact (exportSpecifiers_ends (Room.turns (by decide))).never
  · exact hvar
  · exact hvar
  · exact (function_takes h _ _).inside.ends.seq fun _ => .done
  · exact (classLiteral_takes h _ _).inside.ends.seq fun _ => .done
  · refine isLetDeclaration_ends.seq fun _ => .ite (fun _ => hvar) fun _ => (isWord_ends _).seq fun _ => ?_
    refine .ite (fun _ => next_ends.seq fun _ => (function_takes h _ _).inside.ends.seq fun _ => .done) fun _ => ?_
    exact unexpectedHere_ends.seq fun _ => next_ends.seq fun _ => .done

theorem exportDeclaration_ends (decs : List Expr) : (exportDeclaration sub decs).Ends (Room sub.fuel 8) always := by
  refine (expect_ends _).first fun _ => kind_ends.seq fun _ => ?_
  extract_lets -underBinder rest
  have hrest (decs : List Expr) : (rest decs).Ends (Room sub.fuel 8) never := by
    refine .ite (fun _ => plainExport_ends h) fun _ => kind_ends.seq fun _ => ?_
    split
    · exact (classLiteral_takes h _ _).inside.ends.seq fun _ => .done
    · exact next_ends.seq fun _ => (classLiteral_takes h _ _).inside.ends.seq fun _ => .done
    · exact unexpectedHere_ends.seq fun _ => plainExport_ends h
  refine .ite (fun _ => ?_) fun _ => Ends.done.seq hrest
  exact ((decorators_ends h).weaken Room.behind).seq hrest

theorem moduleItem_ends : (moduleItem sub).Ends (Room sub.fuel 8) always := by
  refine kind_ends.seq fun k => ?_
  split
  · exact peek_ends.seq fun _ => .ite (fun _ => importDeclaration_ends (Room.turns (by decide))) fun _ => h.item
  · exact exportDeclaration_ends h _
  · refine .attempt ((decorators_ends h).weaken Room.behind) fun s hs hr hle => ?_
    have hrun : (do
        if (← kind) = .exportKw then exportDeclaration sub (decorators sub s).1
        else
          restore s.checkpoint
          sub.item : Parser Stmt) (decorators sub s).2 =
        if (decorators sub s).2.token.kind = .exportKw then
          exportDeclaration sub (decorators sub s).1 (decorators sub s).2
        else sub.item (restore s.checkpoint (decorators sub s).2).2 := by
      show (if (decorators sub s).2.token.kind = .exportKw then _ else _ : Parser Stmt) _ = _
      split <;> rfl
    rw [hrun]
    split
    · exact hle.bind_ends (exportDeclaration_ends h _) hr
    · exact (hle.restore hs).bind_ends h.item hr
  · exact h.item

theorem program_ends : (program sub).Ends (Room sub.fuel 8) never :=
  itemList_ends _ (moduleItem_ends h) (Room.turns (by decide))

/-! ### The recursive productions -/

/-- A production has room in a bound that is larger by one than the bound of those it runs. -/
theorem production_ends (g : Goal) : (production sub g).Ends (g.Fits (sub.fuel + 1)) always := by
  have hroom {b l : Nat} (hr : Room (sub.fuel + 1) (b + 1) l) : Room sub.fuel b l := Nat.le_of_succ_le_succ hr
  cases g with
  | assignment => exact (assignment_ends h).weaken fun _ => hroom
  | binary above => exact (binary_ends h above).weaken fun _ => hroom
  | unary => exact (unary_ends h).weaken fun _ => hroom
  | leftHand => exact (leftHand_ends h).weaken fun _ => hroom
  | newExpr => exact (newExpr_takes h).ends.weaken fun _ => hroom
  | target => exact (target_ends h).weaken fun _ => hroom
  | statement => exact (statement_ends h).weaken fun _ => hroom
  | item => exact (item_ends h).weaken fun _ => hroom

omit h in
/-- By induction on the bound: there is room for nothing in a bound of zero. -/
theorem runGoal_fits (n : Nat) : Sub.Fits ⟨n, runGoal n⟩ := by
  induction n with
  | zero =>
    intro g
    have hnone (s : State) : ¬ ∀ l ≤ s.left, g.Fits 0 l := by
      intro hr
      have := hr s.left (Nat.le_refl _)
      cases g <;> simp only [Goal.Fits, Ahead, Room] at this <;> omega
    exact ⟨fun s _ hr => absurd hr (hnone s), fun s _ hr => absurd hr (hnone s)⟩
  | succ n ih => exact fun g => production_ends ih g

end Parser

/-! ### Texts -/

/-- Within the bounds of the lexer, reading on from a cursor is the same as without them. -/
structure Cursor.Unhindered (c : Cursor) : Prop where
  gap : ∀ newline, skipGap c.rest c newline = Unbounded.skipGap c newline
  name : scanNameFrom c.rest c = Unbounded.scanName c
  string : ∀ start quote, scanStringFrom start quote c.rest c = Unbounded.scanString start quote c
  chunk : ∀ start, scanChunkFrom start c.rest c = Unbounded.scanChunk start c
  pattern : ∀ start inClass, scanPattern start inClass c.rest c = Unbounded.scanPattern start inClass c

theorem Cursor.IsText.unhindered {c : Cursor} (h : c.IsText) : c.Unhindered where
  gap newline := (skipGap_eq h (Nat.le_refl _) newline).symm
  name := (scanNameFrom_eq h (Nat.le_refl _)).symm
  string start quote := (scanStringFrom_eq h (Nat.le_refl _) start quote).symm
  chunk start := (scanChunkFrom_eq h (Nat.le_refl _) start).symm
  pattern start inClass := (scanPattern_eq h (Nat.le_refl _) start inClass).symm

namespace Parser

theorem State.left_ofString_le (text : String) : (State.ofString text).left ≤ text.utf8ByteSize := by
  rw [← Cursor.left_ofString]
  exact (Token.leads_scan _).left

/-- The bound for a text is never reached in it. -/
theorem program_starved (text : String) :
    (program ⟨fuelFor text, runGoal (fuelFor text)⟩ (State.ofString text)).2.starved = false := by
  refine ((program_ends (runGoal_fits (fuelFor text))).leads _ (Token.scan_sound _) fun l hl => ?_).starved
  have hleft := State.left_ofString_le text
  unfold Room fuelFor
  dsimp only
  omega

end Parser

/-- Parsing ends on every text.  What `Program.parse` gives is read without reaching the bound on the depth of
recursion and the length of loops, and wherever the lexer stands in the text, its loops come to the end that
they come to without a bound. -/
theorem Program.parse_ends (text : String) :
    ∃ body s, (Parser.program ⟨Parser.fuelFor text, Parser.runGoal (Parser.fuelFor text)⟩).run (.ofString text) =
        (body, s) ∧
      Program.parse text = (if s.faults.isEmpty then .ok ⟨body⟩ else .error s.faults) ∧ s.starved = false ∧
      ∀ c, (Cursor.ofString text).Leads c → c.Unhindered := by
  refine ⟨_, _, rfl, rfl, Parser.program_starved text, fun c hc => ?_⟩
  have htext := hc.isText (Cursor.isText_ofString text)
  exact htext.unhindered

/-- A template that is never closed, with a substitution in it. -/
theorem Program.parse_ends_sample :
    ∃ body s, (Parser.program ⟨Parser.fuelFor "\x60$\x7b /", Parser.runGoal (Parser.fuelFor "\x60$\x7b /")⟩).run
        (.ofString "\x60$\x7b /") = (body, s) ∧
      s.starved = false ∧ (Cursor.ofString "\x60$\x7b /").step.Unhindered := by
  obtain ⟨body, s, hrun, -, hs, hc⟩ := Program.parse_ends "\x60$\x7b /"
  exact ⟨body, s, hrun, hs, hc _ (Cursor.step_leads _)⟩

end Deadwood
