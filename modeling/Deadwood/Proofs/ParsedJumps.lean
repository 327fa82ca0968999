import Deadwood.Parser.Module
import Deadwood.Proofs.Jumps
import Deadwood.Proofs.Yields
import Mathlib.Tactic.DefEqTransformations

/-!
# Jumps and identifiers of a parsed program

The parser knows the targets of jumps by its context, and reports a jump without one.  So where it reports
nothing, every jump has its target.  It makes an identifier of its name alone.  Each production is shown to
yield this from the productions below it.
-/

namespace Deadwood

namespace Parser

/-- The targets that the context allows. -/
def Context.targets (c : Context) : Targets := ⟨c.labels, c.inLoop, c.inSwitch, c.inFunction⟩

/-- What a goal gives is sound: its jumps have their targets, and `I` holds of its identifiers. -/
def Goal.Sound (I : Ident → Prop) : (g : Goal) → Context → g.Result → Prop
  | .target, _, p => Pattern.Sound I p
  | .statement, c, t => Stmt.SoundAlone I c.targets t
  | .item, c, t => Stmt.Sound I c.targets t
  | .assignment, _, e => Expr.Sound I e
  | .binary _, _, e => Expr.Sound I e
  | .unary, _, e => Expr.Sound I e
  | .leftHand, _, e => Expr.Sound I e
  | .newExpr, _, e => Expr.Sound I e

namespace Sub

/-- The recursive productions yield what is sound, and so do those that make identifiers. -/
structure Sounds (sub : Sub) (I : Ident → Prop) : Prop where
  fresh : ∀ name, I { name }
  goal : ∀ g : Goal, (sub.run g).Yields (g.Sound I)

variable {sub : Sub} {I : Ident → Prop} (h : sub.Sounds I)

include h

theorem Sounds.assignment : sub.assignment.Yields fun _ e => e.Sound I := h.goal .assignment

theorem Sounds.binary (above : Nat) : (sub.binary above).Yields fun _ e => e.Sound I := h.goal (.binary above)

theorem Sounds.unary : sub.unary.Yields fun _ e => e.Sound I := h.goal .unary

theorem Sounds.leftHand : sub.leftHand.Yields fun _ e => e.Sound I := h.goal .leftHand

theorem Sounds.newExpr : sub.newExpr.Yields fun _ e => e.Sound I := h.goal .newExpr

theorem Sounds.target : sub.target.Yields fun _ p => p.Sound I := h.goal .target

theorem Sounds.statement : sub.statement.Yields fun c t => t.SoundAlone I c.targets := h.goal .statement

theorem Sounds.item : sub.item.Yields fun c t => t.Sound I c.targets := h.goal .item

theorem Sounds.identifier : identifier.Yields fun _ id => I id :=
  identifier_yields.mono fun _ id hid => hid ▸ h.fresh id.name

theorem Sounds.propertyName : propertyName.Yields fun _ id => I id :=
  propertyName_yields.mono fun _ id hid => hid ▸ h.fresh id.name

end Sub

variable {sub : Sub} {I : Ident → Prop} (h : sub.Sounds I)

include h

/-! ### Lists of expressions -/

theorem expression_yields : (expression sub).Yields fun _ e => e.Sound I := by
  refine h.assignment.bind fun first => kind_steady.seq fun _ => .ite (fun _ => .pure fun _ hf => hf) fun _ => ?_
  refine (Yields.many (I := fun _ es => ∀ e ∈ es, Expr.Sound I e) ?_ (fun es => ?_) _ []).bind fun rest => .pure ?_
  · exact kind_steady.seq fun _ => failed_steady.seq fun _ => .pure fun _ => trivial
  · exact next_steady.seq fun _ => h.assignment.bind fun e => .pure fun _ he hes => List.forall_mem_cons.2 ⟨he, hes⟩
  · intro _ hrest hfirst
    exact Expr.foldList_sound.2 (List.forall_mem_cons.2 ⟨hfirst, by simpa using hrest⟩)

theorem spreadable_yields : (spreadable sub).Yields fun _ e => e.Sound I := by
  refine (accept_steady _).seq fun _ => .ite (fun _ => ?_) fun _ => h.assignment
  exact h.assignment.bind fun e => .pure fun _ he => Expr.sound_iff.2 he

theorem arguments_yields : (arguments sub).Yields fun _ es => ∀ e ∈ es, Expr.Sound I e := by
  refine (expect_steady _).seq fun _ => (commaList_yields _ (spreadable_yields h) _).withIn.bind fun es => ?_
  exact (expect_steady _).seq fun _ => .pure fun _ hes => hes

theorem bracketed_yields (opening closing : TokenKind) : Yields (do
    expect opening
    let e ← withIn (expression sub)
    expect closing
    return e) fun _ e => e.Sound I := by
  refine (expect_steady _).seq fun _ => (expression_yields h).withIn.bind fun e => ?_
  exact (expect_steady _).seq fun _ => .pure fun _ he => he

theorem computedKey_yields : (computedKey sub).Yields fun _ e => e.Sound I := bracketed_yields h _ _

theorem parenthesized_yields : (parenthesized sub).Yields fun _ e => e.Sound I := by
  refine next_steady.seq fun _ => (expression_yields h).withIn.bind fun e => ?_
  exact (expect_steady _).seq fun _ => .pure fun _ he => he

/-! ### Literals -/

omit h in
theorem regExpLiteral_yields : regExpLiteral.Yields fun _ e => e.Sound I := by
  refine token_steady.seq fun t => ?_
  refine .seq (.modify (fun _ => rfl) fun s => ?_) fun _ => next_steady.seq fun _ => .pure fun _ => trivial
  exact (List.prefix_append _ _).trans (List.prefix_append _ _)

omit h in
theorem resumeTemplate_steady : resumeTemplate.Steady :=
  .modify (fun _ => rfl) fun _ => List.prefix_append _ _

theorem templateLiteral_yields {tag : Option Expr} :
    (templateLiteral sub tag).Yields fun _ e => (∀ x ∈ tag, x.Sound I) → e.Sound I := by
  refine (Yields.many (I := fun _ r => ∀ e ∈ r.2, Expr.Sound I e) ?_ (fun r => ?_) _ ([], [])).bind fun r => .pure ?_
  · exact failed_steady.seq fun _ => .pure fun _ => trivial
  · refine token_steady.seq fun t => next_steady.seq fun _ => .ite (fun _ => .pure fun _ hr => hr) fun _ => ?_
    refine (expression_yields h).withIn.bind fun e => kind_steady.seq fun _ => .ite (fun _ => ?_) fun _ => ?_
    · exact .faulty unexpectedHere_yields (.pure fun _ => trivial)
    · exact resumeTemplate_steady.seq fun _ => .pure fun _ he hr => List.forall_mem_cons.2 ⟨he, hr⟩
  · intro _ hr htag
    exact ⟨Expr.foldOpt_sound htag _, Expr.foldList_sound.2 (by simpa using hr)⟩

theorem arrayLiteral_yields : (arrayLiteral sub).Yields fun _ e => e.Sound I := by
  refine (expect_steady _).seq fun _ => Yields.bind (P := fun _ es => ∀ e ∈ es, Expr.Sound I e) ?_ fun es =>
    (expect_steady _).seq fun _ => .pure fun _ hes => Expr.foldList_sound.2 (by simpa using hes)
  refine ((Yields.many (I := fun _ es => ∀ e ∈ es, Expr.Sound I e) (isOpen_steady _) (fun es => ?_) _ []).mono
    fun _ _ hes => hes (by simp)).withIn
  refine (accept_steady _).seq fun _ => .ite (fun _ => .pure fun _ hes => ?_) fun _ => ?_
  · exact List.forall_mem_cons.2 ⟨trivial, hes⟩
  · refine (spreadable_yields h).bind fun e => kind_steady.seq fun _ => .option (expect_steady _) (.pure ?_)
    exact fun _ he hes => List.forall_mem_cons.2 ⟨he, hes⟩

theorem propertyKey_yields : (propertyKey sub).Yields fun _ r => r.1.Sound I := by
  refine token_steady.seq fun t => ?_
  split
  · refine next_steady.seq fun _ => h.assignment.withIn.bind fun key => ?_
    exact (expect_steady _).seq fun _ => .pure fun _ hkey => hkey
  · exact next_steady.seq fun _ => .pure fun _ => trivial
  · exact next_steady.seq fun _ => .pure fun _ => trivial
  · refine .ite (fun _ => ?_) fun _ => .faulty (unexpected_yields t) (next_steady.seq fun _ => .pure fun _ => trivial)
    refine context_yields.steady.seq fun _ => .option (unexpected_yields t).steady ?_
    exact next_steady.seq fun _ => .pure fun _ => h.fresh _

/-! ### Functions -/

theorem bindingElement_yields : (bindingElement sub).Yields fun _ d => d.Sound I := by
  refine h.target.bind fun target => (accept_steady _).seq fun _ => .ite (fun _ => ?_) fun _ => .pure fun _ ht => ?_
  · refine h.assignment.bind fun e => .pure fun _ he ht => ?_
    exact fun kind c => ⟨ht kind c, Expr.sound_iff.2 he⟩
  · exact fun kind c => ⟨ht kind c, trivial⟩

theorem parameters_yields :
    (parameters sub).Yields fun _ r => (∀ d ∈ r.1, Declarator.Sound I d) ∧ ∀ p ∈ r.2, Pattern.Sound I p := by
  refine (expect_steady _).seq fun _ => Yields.bind
    (P := fun _ r => (∀ d ∈ r.1, Declarator.Sound I d) ∧ ∀ p ∈ r.2, Pattern.Sound I p) ?_ fun r =>
    (expect_steady _).seq fun _ => .pure fun _ hr => ⟨by simpa using hr.1, hr.2⟩
  refine ((Yields.many (I := fun _ r => (∀ d ∈ r.1, Declarator.Sound I d) ∧ ∀ p ∈ r.2, Pattern.Sound I p)
    (isOpen_steady _) (fun r => ?_) _ ([], none)).mono fun _ _ hr => hr ⟨by simp, by simp⟩).withIn
  refine (accept_steady _).seq fun _ => .ite (fun _ => ?_) fun _ => ?_
  · refine h.target.bind fun rest => kind_steady.seq fun _ => .option (report_yields _).steady (.pure ?_)
    exact fun _ hrest hr => ⟨hr.1, by simpa using hrest⟩
  · refine (bindingElement_yields h).bind fun d => kind_steady.seq fun _ => .option (expect_steady _) (.pure ?_)
    exact fun _ hd hr => ⟨List.forall_mem_cons.2 ⟨hd, hr.1⟩, by simp⟩

theorem block_yields : (block sub).Yields fun c ts => ∀ t ∈ ts, Stmt.Sound I c.targets t := by
  refine (expect_steady _).seq fun _ => (itemList_yields _ h.item _).bind fun body => ?_
  exact (expect_steady _).seq fun _ => .pure fun _ hbody => hbody

theorem functionRest_yields (name : Option Ident) (async generator : Bool) :
    (functionRest sub name async generator).Yields fun _ f => (∀ id ∈ name, I id) → f.Sound I := by
  refine Yields.inFunction (P := fun c f => c.targets = .body → (∀ id ∈ name, I id) → f.Sound I) _ _ ?_ |>.mono
    fun _ _ hf => hf rfl
  refine (parameters_yields h).bind fun r => (block_yields h).bind fun body => .pure fun c hbody hr hc hname => ?_
  rw [hc] at hbody
  exact ⟨Fold.sound_optIdent hname _ _, Declarator.foldElems_sound hr.1 _ _, Pattern.foldOpt_sound hr.2 _ _,
    Stmt.foldList_sound.2 hbody⟩

theorem function_yields (declaration async : Bool) : (function sub declaration async).Yields fun _ f => f.Sound I := by
  refine (expect_steady _).seq fun _ => (accept_steady _).seq fun generator => kind_steady.seq fun _ => ?_
  have hrest (name : Option Ident) := functionRest_yields h name async generator
  refine .ite (fun _ => .bindNone hrest) fun _ => .ite (fun _ => .bindSome h.identifier hrest) fun _ => ?_
  exact .bindSome (h.identifier.inSetting _ _) hrest

theorem method_yields (async generator : Bool) : (method sub async generator).Yields fun _ f => f.Sound I :=
  (functionRest_yields h none async generator).mono fun _ _ hf => hf nofun

omit h in
theorem checkAccessor_steady (kind : MemberKind) (f : Func) (offset : Nat) : (checkAccessor kind f offset).Steady := by
  unfold checkAccessor
  split
  · exact .ite (fun _ => (reportAt_yields _ _).steady) fun _ => .pure fun _ => trivial
  · exact .ite (fun _ => (reportAt_yields _ _).steady) fun _ => .pure fun _ => trivial
  · exact .pure fun _ => trivial

theorem arrowBody_yields {params : List Declarator} {rest : Option Pattern} (async : Bool) :
    (arrowBody sub params rest async).Yields fun _ e =>
      ((∀ d ∈ params, Declarator.Sound I d) ∧ ∀ p ∈ rest, Pattern.Sound I p) → e.Sound I := by
  refine (expect_steady _).seq fun _ => Yields.inFunction
    (P := fun c e => c.targets = .body → _ → e.Sound I) _ _ ?_ |>.mono fun _ _ he => he rfl
  refine kind_steady.seq fun _ => .ite (fun _ => ?_) fun _ => ?_
  · refine (block_yields h).bind fun body => .pure fun c hbody hc hp => ?_
    rw [hc] at hbody
    exact ⟨Declarator.foldElems_sound hp.1 _ _, Pattern.foldOpt_sound hp.2 _ _, Stmt.foldList_sound.2 hbody⟩
  · refine h.assignment.bind fun e => .pure fun _ he _ hp => ?_
    exact ⟨Declarator.foldElems_sound hp.1 _ _, Pattern.foldOpt_sound hp.2 _ _, he⟩

theorem singleArrow_yields (param : Ident) (async : Bool) :
    (singleArrow sub param async).Yields fun _ e => I param → e.Sound I := by
  refine (arrowBody_yields h async).mono fun _ _ he hparam => he ⟨List.forall_mem_singleton.2 ?_, nofun⟩
  exact fun _ _ => ⟨hparam, trivial⟩

theorem arrowParameters_yields (async : Bool) : (arrowParameters sub async).Yields fun _ r =>
    (∀ d ∈ r.1, Declarator.Sound I d) ∧ ∀ p ∈ r.2, Pattern.Sound I p := by
  unfold arrowParameters
  exact .option next_steady (parameters_yields h)

/-- The parameters of what turns out to be no arrow function leave no trace. -/
theorem listArrow?_yields (async : Bool) : (listArrow? sub async).Yields fun _ r => ∀ e ∈ r, Expr.Sound I e := by
  refine .checkpoint fun s₀ => .bind (arrowParameters_yields h async) fun r => .get fun s => ?_
  refine .ite (.restore (.pure nofun)) (.resume ?_)
  refine (arrowBody_yields h async).bind fun e => .pure fun _ he hr => ?_
  simpa using he hr.2

theorem arrow?_yields : (arrow? sub).Yields fun _ r => ∀ e ∈ r, Expr.Sound I e := by
  refine isBindingName_steady.seq fun _ => .ite (fun _ => ?_) fun _ => ?_
  · refine peek_steady.seq fun t => (isWord_steady _).seq fun _ => ?_
    refine .ite (fun _ => listArrow?_yields h true) fun _ => .ite (fun _ => .checkpoint fun s₀ => ?_) fun _ => ?_
    · refine .bind next_steady fun _ => .bind h.identifier fun param => .bind token_steady fun arrow => ?_
      refine .ite (.resume ?_) (.restore (.pure nofun))
      exact (singleArrow_yields h param true).bind fun e => .pure fun _ he hr => by simpa using he hr.1.2
    · refine .ite (fun _ => .pure nofun) fun _ => h.identifier.bind fun param => ?_
      exact (singleArrow_yields h param false).bind fun e => .pure fun _ he hparam => by simpa using he hparam
  · refine kind_steady.seq fun _ => .ite (fun _ => listArrow?_yields h false) fun _ => .pure nofun

/-! ### Object literals -/

omit h in
theorem modifiers_steady (default : MemberKind) : (modifiers default).Steady := by
  refine (isModifier_steady _).seq fun async => .option next_steady ((accept_steady _).seq fun generator => ?_)
  refine .ite (fun _ => .pure fun _ => trivial) fun _ => (isModifier_steady _).seq fun _ => .ite (fun _ => ?_) fun _ => ?_
  · exact next_steady.seq fun _ => .pure fun _ => trivial
  · refine (isModifier_steady _).seq fun _ => .ite (fun _ => ?_) fun _ => .pure fun _ => trivial
    exact next_steady.seq fun _ => .pure fun _ => trivial

omit h in
/-- The key of a property is looked at only where it is computed. -/
theorem Property.keyed_sound {key value : Expr} {kind : MemberKind} {computed : Bool} (hkey : key.Sound I)
    (hvalue : value.Sound I) : (Property.keyed key kind value computed).Sound I := by
  refine ⟨?_, hvalue⟩
  cases computed
  · trivial
  · exact hkey

theorem objectProperty_yields : (objectProperty sub).Yields fun _ p => p.Sound I := by
  refine (accept_steady _).seq fun _ => .ite (fun _ => ?_) fun _ => ?_
  · exact h.assignment.bind fun e => .pure fun _ he => he
  refine (modifiers_steady _).seq fun m => token_steady.seq fun t => (propertyKey_yields h).bind fun r => ?_
  refine kind_steady.seq fun _ => .ite (fun _ => ?_) fun _ => (accept_steady _).seq fun _ => .ite (fun _ => ?_) fun _ => ?_
  · refine (method_yields h _ _).bind fun f => (checkAccessor_steady _ _ _).seq fun _ => .pure fun _ hf hkey => ?_
    exact Property.keyed_sound hkey hf
  · exact h.assignment.bind fun e => .pure fun _ he hkey => Property.keyed_sound hkey he
  · split
    · next id hid =>
      rw [hid]
      refine .ite (fun _ => .faulty unexpectedHere_yields (.pure fun _ => trivial)) fun _ => token_steady.seq fun t => ?_
      refine .ite (fun _ => ?_) fun _ => .pure fun _ hkey => ⟨hkey, trivial⟩
      refine .seq (.modify (fun _ => rfl) fun _ => List.prefix_rfl) fun _ => next_steady.seq fun _ => ?_
      exact h.assignment.bind fun e => .pure fun _ he hkey => ⟨hkey, Expr.sound_iff.2 he⟩
    · exact .faulty unexpectedHere_yields (.pure fun _ => trivial)

theorem objectLiteral_yields : (objectLiteral sub).Yields fun _ e => e.Sound I := by
  refine (expect_steady _).seq fun _ => (commaList_yields _ (objectProperty_yields h) _).withIn.bind fun ps => ?_
  exact (expect_steady _).seq fun _ => .pure fun _ hps => Property.foldList_sound.2 hps

/-! ### Patterns -/

theorem arrayPattern_yields : (arrayPattern sub).Yields fun _ p => p.Sound I := by
  refine (expect_steady _).seq fun _ => (Yields.many
    (I := fun _ r => (∀ d ∈ r.1, Declarator.Sound I d) ∧ ∀ p ∈ r.2, Pattern.Sound I p) (isOpen_steady _) (fun r => ?_) _
    ([], none)).bind fun r => (expect_steady _).seq fun _ => .pure fun _ hr kind c => ?_
  · refine (accept_steady _).seq fun _ => .ite (fun _ => .pure fun _ hr => ?_) fun _ => ?_
    · exact ⟨List.forall_mem_cons.2 ⟨fun _ _ => ⟨trivial, trivial⟩, hr.1⟩, nofun⟩
    refine (accept_steady _).seq fun _ => .ite (fun _ => ?_) fun _ => ?_
    · refine h.target.bind fun rest => kind_steady.seq fun _ => .option (report_yields _).steady (.pure ?_)
      exact fun _ hrest hr => ⟨hr.1, by simpa using hrest⟩
    · refine (bindingElement_yields h).bind fun d => kind_steady.seq fun _ => .option (expect_steady _) (.pure ?_)
      exact fun _ hd hr => ⟨List.forall_mem_cons.2 ⟨hd, hr.1⟩, nofun⟩
  · have hr := hr ⟨by simp, nofun⟩
    exact ⟨Declarator.foldElems_sound (by simpa using hr.1) _ _, Pattern.foldOpt_sound hr.2 _ _⟩

omit h in
theorem PatternProp.mk_sound {key : Expr} {computed shorthand : Bool} {value : Declarator} (hkey : key.Sound I)
    (hvalue : value.Sound I) : (PatternProp.mk key computed shorthand value).Sound I := by
  refine fun kind c => ⟨?_, Declarator.sound_iff.2 (hvalue kind c)⟩
  cases computed
  · trivial
  · exact Expr.sound_iff.2 hkey

theorem patternProperty_yields : (patternProperty sub).Yields fun _ p => p.Sound I := by
  refine token_steady.seq fun t => (propertyKey_yields h).bind fun r => (accept_steady _).seq fun _ => ?_
  refine .ite (fun _ => ?_) fun _ => .option unexpectedHere_yields.steady ?_
  · exact (bindingElement_yields h).bind fun d => .pure fun _ hd hkey => PatternProp.mk_sound hkey hd
  refine (accept_steady _).seq fun _ => .ite (fun _ => ?_) fun _ => .pure fun _ hkey => ?_
  · refine h.assignment.bind fun e => .pure fun _ he hkey => PatternProp.mk_sound hkey ?_
    exact fun _ _ => ⟨h.fresh _, Expr.sound_iff.2 he⟩
  · exact PatternProp.mk_sound hkey fun _ _ => ⟨h.fresh _, trivial⟩

theorem objectPattern_yields : (objectPattern sub).Yields fun _ p => p.Sound I := by
  refine (expect_steady _).seq fun _ => (Yields.many
    (I := fun _ r => (∀ d ∈ r.1, PatternProp.Sound I d) ∧ ∀ p ∈ r.2, Pattern.Sound I p) (isOpen_steady _) (fun r => ?_) _
    ([], none)).bind fun r => (expect_steady _).seq fun _ => .pure fun _ hr kind c => ?_
  · refine (accept_steady _).seq fun _ => .ite (fun _ => ?_) fun _ => ?_
    · refine isBindingName_steady.seq fun _ => .option unexpectedHere_yields.steady ?_
      refine h.identifier.bind fun id => .pure fun _ hid hr => ⟨hr.1, ?_⟩
      rintro _ ⟨⟩ _ _
      exact hid
    · refine (patternProperty_yields h).bind fun d => kind_steady.seq fun _ => .option (expect_steady _) (.pure ?_)
      exact fun _ hd hr => ⟨List.forall_mem_cons.2 ⟨hd, hr.1⟩, nofun⟩
  · have hr := hr ⟨by simp, nofun⟩
    exact ⟨PatternProp.foldList_sound (by simpa using hr.1) _ _, Pattern.foldOpt_sound hr.2 _ _⟩

theorem target_yields : (target sub).Yields fun _ p => p.Sound I := by
  refine kind_steady.seq fun k => ?_
  split
  · exact arrayPattern_yields h
  · exact objectPattern_yields h
  · refine isBindingName_steady.seq fun _ => .ite (fun _ => ?_) fun _ => ?_
    · exact h.identifier.bind fun id => .pure fun _ hid _ _ => hid
    · exact .faulty unexpectedHere_yields (next_steady.seq fun _ => .pure fun _ => trivial)

/-! ### Classes -/

theorem decoratorPath_yields {e : Expr} (n : Nat) : (decoratorPath e n).Yields fun _ e' => e.Sound I → e'.Sound I := by
  refine Yields.many (I := fun _ e => Expr.Sound I e) (kind_steady.seq fun _ => .pure fun _ => trivial) (fun e => ?_) n e
  exact next_steady.seq fun _ => h.propertyName.bind fun _ => .pure fun _ hname he => ⟨Expr.sound_iff.2 he, hname⟩

theorem decorator_yields : (decorator sub).Yields fun _ e => e.Sound I := by
  refine next_steady.seq fun _ => kind_steady.seq fun _ => .ite (fun _ => parenthesized_yields h) fun _ => ?_
  refine h.identifier.bind fun id => (decoratorPath_yields h _).bind fun e => kind_steady.seq fun _ => ?_
  refine .ite (fun _ => ?_) fun _ => .pure fun _ he hid => he hid
  refine (arguments_yields h).bind fun args => .pure fun _ hargs he hid => ?_
  exact ⟨Expr.sound_iff.2 (he hid), Expr.foldList_sound.2 hargs⟩

theorem decorators_yields : (decorators sub).Yields fun _ es => ∀ e ∈ es, Expr.Sound I e := by
  refine (Yields.many (I := fun _ es => ∀ e ∈ es, Expr.Sound I e) ?_ (fun es => ?_) _ []).bind fun es => .pure ?_
  · exact kind_steady.seq fun _ => failed_steady.seq fun _ => .pure fun _ => trivial
  · exact (decorator_yields h).bind fun e => .pure fun _ he hes => List.forall_mem_cons.2 ⟨he, hes⟩
  · exact fun _ hes => by simpa using hes

theorem classMember_yields (isStatic : Bool) : (classMember sub isStatic).Yields fun _ e => e.Sound I := by
  refine (modifiers_steady _).seq fun m => token_steady.seq fun t => (propertyKey_yields h).bind fun r => ?_
  have hkey {e : Expr} (computed : Bool) (he : e.Sound I) :
      (if computed then e.fold (Fold.sound I) else (Fold.sound I).empty) (.body, false) := by
    cases computed
    · trivial
    · exact he
  refine kind_steady.seq fun _ => .ite (fun _ => ?_) fun _ => (accept_steady _).seq fun _ => ?_
  · refine (method_yields h _ _).bind fun f => (checkAccessor_steady _ _ _).seq fun _ => .pure fun _ hf hr => ?_
    exact ⟨hkey r.2 hr, hf⟩
  extract_lets rest
  have hrest (init : Option Expr) : (rest init).Yields fun _ e => (∀ x ∈ init, x.Sound I) → r.1.Sound I → e.Sound I :=
    semicolon_steady.seq fun _ => .pure fun _ hi hr => ⟨hkey r.2 hr, Expr.foldOpt_sound hi _⟩
  exact .ite (fun _ => .bindSome (h.assignment.withIn.inFunction _ _) hrest) fun _ => .bindNone hrest

theorem classElement_yields : (classElement sub).Yields fun _ e => e.Sound I := by
  refine (isModifier_steady _).seq fun _ => .ite (fun _ => ?_) fun _ => classMember_yields h false
  refine next_steady.seq fun _ => kind_steady.seq fun _ => .ite (fun _ => ?_) fun _ => classMember_yields h true
  exact ((block_yields h).inFunction _ _).bind fun body => .pure fun _ hbody => Stmt.foldList_sound.2 hbody

theorem classBody_yields : Yields (do
    expect .leftBrace
    let body ← many (isOpen .rightBrace) (fun body => do
      if ← accept .semicolon then return (body, true)
      if (← kind) = .at then
        report .memberDecorators
        discard (decorators sub)
      return ((← classElement sub) :: body, true)) sub.fuel []
    expect .rightBrace
    return body.reverse) fun _ es => ∀ e ∈ es, ClassElement.Sound I e := by
  refine (expect_steady _).seq fun _ => (Yields.many (I := fun _ es => ∀ e ∈ es, ClassElement.Sound I e)
    (isOpen_steady _) (fun es => ?_) _ []).bind fun es => (expect_steady _).seq fun _ => .pure fun _ hes => ?_
  · refine (accept_steady _).seq fun _ => .ite (fun _ => .pure fun _ hes => hes) fun _ => kind_steady.seq fun _ => ?_
    extract_lets rest
    have hrest : (rest ()).Yields fun _ r => (∀ e ∈ es, e.Sound I) → ∀ e ∈ r.1, e.Sound I :=
      (classElement_yields h).bind fun e => .pure fun _ he hes => List.forall_mem_cons.2 ⟨he, hes⟩
    refine .ite (fun _ => (report_yields _).steady.seq fun _ => ?_) fun _ => hrest
    exact (Yields.discard (decorators_yields h).steady).seq fun _ => hrest
  · simpa using hes (by simp)

theorem classLiteral_yields {decs : List Expr} (declaration : Bool) :
    (classLiteral sub decs declaration).Yields fun _ c => (∀ e ∈ decs, Expr.Sound I e) → c.Sound I := by
  refine (expect_steady _).seq fun _ => isBindingName_steady.seq fun _ => ?_
  extract_lets afterName unnamed
  have hbody (name : Option Ident) (superclass : Option Expr) {body : List ClassElement}
      (hn : ∀ id ∈ name, I id) (hs : ∀ x ∈ superclass, x.Sound I) (hb : ∀ e ∈ body, e.Sound I)
      (hd : ∀ e ∈ decs, Expr.Sound I e) : (Class.mk name superclass body decs).Sound I :=
    ⟨Expr.foldList_sound.2 hd, Fold.sound_optIdent hn _ _, Expr.foldOpt_sound hs _, ClassElement.foldList_sound.2 hb⟩
  have hname (name : Option Ident) : (afterName name).Yields fun _ c =>
      (∀ id ∈ name, I id) → (∀ e ∈ decs, Expr.Sound I e) → c.Sound I := by
    refine (accept_steady _).seq fun _ => ?_
    extract_lets rest
    have hrest (superclass : Option Expr) : (rest superclass).Yields fun _ c =>
        (∀ x ∈ superclass, x.Sound I) → (∀ id ∈ name, I id) → (∀ e ∈ decs, Expr.Sound I e) → c.Sound I := by
      refine ((classBody_yields h).inSetting _ _).bind fun body => .pure fun _ hb hs hn hd => ?_
      exact hbody name superclass hn hs hb hd
    exact .ite (fun _ => .bindSome h.leftHand hrest) fun _ => .bindNone hrest
  refine .ite (fun _ => .bindSome h.identifier hname) fun _ => ?_
  exact .option unexpectedHere_yields.steady ((hname none).mono fun _ _ hc => hc nofun)

theorem decoratedClass_yields (declaration : Bool) : (decoratedClass sub declaration).Yields fun _ c => c.Sound I := by
  refine (decorators_yields h).bind fun decs => kind_steady.seq fun _ => .option unexpectedHere_yields.steady ?_
  exact (classLiteral_yields h declaration).mono fun _ _ hc hdecs => hc hdecs

/-! ### Operators -/

omit h in
theorem isAsyncFunction_steady : isAsyncFunction.Steady := by
  refine (isWord_steady _).seq fun _ => .ite (fun _ => ?_) fun _ => .pure fun _ => trivial
  exact peek_steady.seq fun _ => .pure fun _ => trivial

theorem importExpr_yields : importExpr.Yields fun _ e => e.Sound I := by
  refine next_steady.seq fun _ => (accept_steady _).seq fun _ => .ite (fun _ => token_steady.seq fun _ => ?_) fun _ => ?_
  · refine .option unexpectedHere_yields.steady (next_steady.seq fun _ => .pure fun _ => ?_)
    exact ⟨h.fresh _, h.fresh _⟩
  · exact kind_steady.seq fun _ => .option unexpectedHere_yields.steady (.pure fun _ => h.fresh _)

theorem primary_yields : (primary sub).Yields fun _ e => e.Sound I := by
  have hnext {e : Expr} (he : e.Sound I) : Yields (do next; return e) fun _ e => e.Sound I :=
    next_steady.seq fun _ => .pure fun _ => he
  have hname : Yields (do return Expr.ident (← identifier)) fun _ e => e.Sound I :=
    h.identifier.bind fun _ => .pure fun _ hid => hid
  have hfunc (async : Bool) : Yields (do return Expr.func (← function sub false async)) fun _ e => e.Sound I :=
    (function_yields h false async).bind fun f => .pure fun _ hf => hf
  refine token_steady.seq fun t => ?_
  split
  · refine isAsyncFunction_steady.seq fun _ => .ite (fun _ => next_steady.seq fun _ => hfunc true) fun _ => ?_
    refine .ite (fun _ => next_steady.seq fun _ => kind_steady.seq fun _ => ?_) fun _ => hname
    exact .option (reportAt_yields _ _).steady (.pure fun _ => h.fresh _)
  · exact hname
  · exact hname
  · exact hnext trivial
  · exact next_steady.seq fun _ => kind_steady.seq fun _ => .option (report_yields _).steady (.pure fun _ => trivial)
  · exact hnext trivial
  · exact hnext trivial
  · exact hnext trivial
  · exact hnext trivial
  · exact (templateLiteral_yields h).mono fun _ _ he => he nofun
  · exact regExpLiteral_yields
  · exact regExpLiteral_yields
  · exact arrayLiteral_yields h
  · exact objectLiteral_yields h
  · exact parenthesized_yields h
  · exact hfunc false
  · exact (classLiteral_yields h false).bind fun c => .pure fun _ hc => hc nofun
  · exact (decoratedClass_yields h false).bind fun c => .pure fun _ hc => hc
  · exact importExpr_yields h
  · exact .faulty (unexpected_yields t) (next_steady.seq fun _ => .pure fun _ => trivial)

theorem suffix_yields (left : Expr) : (suffix sub left).Yields fun _ r => left.Sound I → r.1.Sound I := by
  have hcall (optional : Bool) : Yields (do return (Expr.call left (← arguments sub) optional, true)) fun _ r =>
      left.Sound I → r.1.Sound I :=
    (arguments_yields h).bind fun es => .pure fun _ hes hl => ⟨Expr.sound_iff.2 hl, Expr.foldList_sound.2 hes⟩
  have hindex (optional : Bool) : Yields (do return (Expr.index left (← computedKey sub) optional, true)) fun _ r =>
      left.Sound I → r.1.Sound I :=
    (computedKey_yields h).bind fun key => .pure fun _ hkey hl => ⟨Expr.sound_iff.2 hl, hkey⟩
  have hmember (optional : Bool) : Yields (do return (Expr.member left (← propertyName) optional, true)) fun _ r =>
      left.Sound I → r.1.Sound I :=
    h.propertyName.bind fun _ => .pure fun _ hname hl => ⟨Expr.sound_iff.2 hl, hname⟩
  refine kind_steady.seq fun k => ?_
  split
  · exact next_steady.seq fun _ => hmember false
  · refine next_steady.seq fun _ => kind_steady.seq fun k => ?_
    split
    · exact hcall true
    · exact hindex true
    · exact .faulty (report_yields _) (.pure fun _ => trivial)
    · exact hmember true
  · exact hindex false
  · exact hcall false
  · exact (templateLiteral_yields h).bind fun e => .pure fun _ he hl => he (by simpa using hl)
  · exact .pure fun _ hl => hl

theorem leftHand_yields : (leftHand sub).Yields fun _ e => e.Sound I := by
  have hsuffix (left : Expr) : (many (do return !(← failed)) (suffix sub) sub.fuel left).Yields fun _ e =>
      left.Sound I → e.Sound I :=
    .many (failed_steady.seq fun _ => .pure fun _ => trivial) (suffix_yields h) _ _
  refine kind_steady.seq fun _ => .ite (fun _ => h.newExpr.bind hsuffix) fun _ => ?_
  exact (primary_yields h).bind hsuffix

theorem calleeSuffix_yields (callee : Expr) :
    (calleeSuffix sub callee).Yields fun _ r => callee.Sound I → r.1.Sound I := by
  refine kind_steady.seq fun k => ?_
  split
  · refine next_steady.seq fun _ => h.propertyName.bind fun _ => .pure fun _ hname hc => ?_
    exact ⟨Expr.sound_iff.2 hc, hname⟩
  · exact (computedKey_yields h).bind fun key => .pure fun _ hkey hc => ⟨Expr.sound_iff.2 hc, hkey⟩
  · exact (templateLiteral_yields h).bind fun e => .pure fun _ he hc => he (by simpa using hc)
  · exact .faulty (report_yields _) (.pure fun _ => trivial)
  · exact .pure fun _ hc => hc

theorem newExpr_yields : (newExpr sub).Yields fun _ e => e.Sound I := by
  refine (expect_steady _).seq fun _ => (accept_steady _).seq fun _ => .ite (fun _ => ?_) fun _ => ?_
  · refine token_steady.seq fun _ => context_yields.steady.seq fun _ => .option unexpectedHere_yields.steady ?_
    exact next_steady.seq fun _ => .pure fun _ => ⟨h.fresh _, h.fresh _⟩
  · refine kind_steady.seq fun _ => ?_
    extract_lets rest
    have hrest (callee : Expr) : (rest callee).Yields fun _ e => callee.Sound I → e.Sound I := by
      refine (Yields.many (I := fun _ e => Expr.Sound I e) (failed_steady.seq fun _ => .pure fun _ => trivial)
        (calleeSuffix_yields h) _ _).bind fun callee' => kind_steady.seq fun _ => .ite (fun _ => ?_) fun _ => ?_
      · refine (arguments_yields h).bind fun es => .pure fun _ hes hc' hc => ?_
        exact ⟨Expr.sound_iff.2 (hc' hc), Expr.foldList_sound.2 hes⟩
      · exact .pure fun _ hc' hc => ⟨Expr.sound_iff.2 (hc' hc), trivial⟩
    exact .ite (fun _ => h.newExpr.bind hrest) fun _ => (primary_yields h).bind hrest

theorem updateAfter_yields : (updateAfter sub).Yields fun _ e => e.Sound I := by
  refine token_steady.seq fun start => h.leftHand.bind fun e => token_steady.seq fun t => ?_
  split
  · refine .ite (fun _ => .pure fun _ he => he) fun _ => .option (reportAt_yields _ _).steady ?_
    exact next_steady.seq fun _ => .pure fun _ he => Expr.sound_iff.2 he
  · exact .pure fun _ he => he

theorem unary_yields : (unary sub).Yields fun _ e => e.Sound I := by
  refine token_steady.seq fun t => ?_
  split
  · refine next_steady.seq fun _ => h.unary.bind fun e => kind_steady.seq fun _ => ?_
    exact .option (report_yields _).steady (.pure fun _ he => Expr.sound_iff.2 he)
  · refine next_steady.seq fun _ => h.unary.bind fun e => ?_
    exact .option (reportAt_yields _ _).steady (.pure fun _ he => Expr.sound_iff.2 he)
  · refine context_yields.steady.seq fun _ => .ite (fun _ => ?_) fun _ => updateAfter_yields h
    exact next_steady.seq fun _ => h.unary.bind fun e => .pure fun _ he => Expr.sound_iff.2 he

theorem operation_yields (above : Nat) (left : Expr) :
    (operation sub above left).Yields fun _ r => left.Sound I → r.1.Sound I := by
  refine kind_steady.seq fun k => context_yields.steady.seq fun c => ?_
  extract_lets prec
  split
  · refine .ite (fun _ => .pure fun _ hl => hl) fun _ => next_steady.seq fun _ => ?_
    exact (h.binary _).bind fun r => .pure fun _ hr hl => ⟨Expr.sound_iff.2 hl, hr⟩
  · exact .pure fun _ hl => hl

theorem binary_yields (above : Nat) : (binary sub above).Yields fun _ e => e.Sound I := by
  refine h.unary.bind fun left => ?_
  exact .many (failed_steady.seq fun _ => .pure fun _ => trivial) (operation_yields h above) _ _

theorem conditional_yields : (conditional sub).Yields fun _ e => e.Sound I := by
  refine (h.binary 0).bind fun test => (accept_steady _).seq fun _ => .ite (fun _ => ?_) fun _ => .pure fun _ ht => ht
  refine h.assignment.withIn.bind fun yes => (expect_steady _).seq fun _ => h.assignment.bind fun no => .pure ?_
  exact fun _ hn hy ht => ⟨Expr.sound_iff.2 ht, Expr.sound_iff.2 hy, hn⟩

theorem yieldExpr_yields : (yieldExpr sub).Yields fun _ e => e.Sound I := by
  refine (expect_steady _).seq fun _ => token_steady.seq fun _ => .ite (fun _ => .pure fun _ => trivial) fun _ => ?_
  refine (accept_steady _).seq fun _ => kind_steady.seq fun _ => .ite (fun _ => ?_) fun _ => ?_
  · exact .option unexpectedHere_yields.steady (.pure fun _ => trivial)
  · exact h.assignment.bind fun e => .pure fun _ he => Expr.sound_iff.2 he

theorem assignment_yields : (assignment sub).Yields fun _ e => e.Sound I := by
  refine kind_steady.seq fun _ => context_yields.steady.seq fun _ => .ite (fun _ => yieldExpr_yields h) fun _ => ?_
  refine (arrow?_yields h).bind fun r => ?_
  split
  · exact .pure fun _ he => he _ rfl
  · refine token_steady.seq fun start => (conditional_yields h).bind fun left => kind_steady.seq fun _ => ?_
    split
    · exact .pure fun _ hl _ => hl
    · refine .option (reportAt_yields _ _).steady (.option (.modify (fun _ => rfl) fun _ => List.prefix_rfl) ?_)
      exact next_steady.seq fun _ => h.assignment.bind fun r => .pure fun _ hr hl _ => ⟨Expr.sound_iff.2 hl, hr⟩

/-! ### Declarations -/

omit h in
theorem isLetDeclaration_steady : isLetDeclaration.Steady := by
  refine (isWord_steady _).seq fun _ => .ite (fun _ => peek_steady.seq fun _ => ?_) fun _ => .pure fun _ => trivial
  split <;> exact .pure fun _ => trivial

theorem declaration_yields : (declaration sub).Yields fun _ r => ∀ d ∈ r.2, Declarator.Sound I d := by
  refine kind_steady.seq fun _ => ?_
  extract_lets rest
  have hrest (kind : DeclKind) : (rest kind).Yields fun _ r => ∀ d ∈ r.2, Declarator.Sound I d := by
    refine next_steady.seq fun _ => (Yields.many (I := fun _ ds => ∀ d ∈ ds, Declarator.Sound I d)
      (failed_steady.seq fun _ => .pure fun _ => trivial) (fun ds => ?_) _ []).bind fun ds => .pure fun _ hds => ?_
    · refine (bindingElement_yields h).bind fun d => (accept_steady _).seq fun _ => .pure fun _ hd hds => ?_
      exact List.forall_mem_cons.2 ⟨hd, hds⟩
    · simpa using hds (by simp)
  refine .ite (fun _ => hrest _) fun _ => (isWord_steady _).seq fun _ => .ite (fun _ => hrest _) fun _ => hrest _

omit h in
theorem checkInitializers_steady (kind : DeclKind) (offset : Nat) (ds : List Declarator) :
    (checkInitializers kind offset ds).Steady := by
  induction ds with
  | nil => exact .pure fun _ => trivial
  | cons d ds ih =>
    refine .ite (fun _ => .ite (fun _ => ?_) fun _ => .ite (fun _ => ?_) fun _ => ih) fun _ => ih
    · exact (reportAt_yields _ _).steady.seq fun _ => ih
    · exact (reportAt_yields _ _).steady.seq fun _ => ih

theorem variableStatement_yields : (variableStatement sub).Yields fun c t => t.SoundAlone I c.targets := by
  refine token_steady.seq fun t => (declaration_yields h).bind fun r => (checkInitializers_steady _ _ _).seq fun _ => ?_
  exact semicolon_steady.seq fun _ => .pure fun _ hr _ => ⟨trivial, Declarator.foldList_sound hr _ _⟩

/-! ### Statements -/

theorem subStatement_yields : (subStatement sub).Yields fun c t => t.SoundAlone I c.targets := by
  refine kind_steady.seq fun k => isLetDeclaration_steady.seq fun _ => ?_
  exact .option (report_yields _).steady h.statement

theorem headExpr_yields : (headExpr sub).Yields fun _ e => e.Sound I := bracketed_yields h _ _

theorem ifStatement_yields : (ifStatement sub).Yields fun c t => t.SoundAlone I c.targets := by
  refine (expect_steady _).seq fun _ => (headExpr_yields h).bind fun test => (subStatement_yields h).bind fun yes => ?_
  refine (accept_steady _).seq fun _ => .ite (fun _ => ?_) fun _ => .pure fun _ hy ht => ?_
  · refine (subStatement_yields h).bind fun no => .pure fun _ hn hy ht => ?_
    exact fun _ => ⟨trivial, Expr.sound_iff.2 ht, hy true, hn true⟩
  · exact fun _ => ⟨trivial, Expr.sound_iff.2 ht, hy true, trivial⟩

/-- A loop is a target in its body. -/
theorem loopBody_yields : (loopBody sub).Yields fun c t => t.SoundAlone I { c.targets with inLoop := true } :=
  (subStatement_yields h).inSetting _ _

theorem whileStatement_yields : (whileStatement sub).Yields fun c t => t.SoundAlone I c.targets := by
  refine (expect_steady _).seq fun _ => (headExpr_yields h).bind fun test => (loopBody_yields h).bind fun body => ?_
  exact .pure fun _ hb ht _ => ⟨trivial, Expr.sound_iff.2 ht, hb true⟩

theorem doWhileStatement_yields : (doWhileStatement sub).Yields fun c t => t.SoundAlone I c.targets := by
  refine (expect_steady _).seq fun _ => (loopBody_yields h).bind fun body => (expect_steady _).seq fun _ => ?_
  refine (headExpr_yields h).bind fun test => (Yields.discard (accept_steady _)).seq fun _ => ?_
  exact .pure fun _ ht hb _ => ⟨trivial, hb true, Expr.sound_iff.2 ht⟩

theorem forHead_yields : (forHead sub).Yields fun _ head => head.Sound I := by
  have hdecl : Yields (declaration sub >>= fun r => pure (ForHead.decl r.1 r.2)) fun _ head => head.Sound I :=
    (declaration_yields h).bind fun r => .pure fun _ hr c => Declarator.foldList_sound hr _ c
  refine kind_steady.seq fun k => ?_
  split
  · exact .pure fun _ _ => trivial
  · exact hdecl
  · exact hdecl
  · refine isLetDeclaration_steady.seq fun _ => .ite (fun _ => hdecl) fun _ => ?_
    exact (expression_yields h).bind fun e => .pure fun _ he c => Expr.sound_iff.2 he

omit h in
theorem checkForTarget_steady (start : Nat) (unclaimed : Option Nat) (head : ForHead) :
    (checkForTarget start unclaimed head).Steady := by
  cases head with
  | decl kind list => exact .ite (fun _ => (reportAt_yields _ _).steady) fun _ => .pure fun _ => trivial
  | expr e =>
    refine .ite (fun _ => (reportAt_yields _ _).steady) fun _ => .ite (fun _ => ?_) fun _ => .pure fun _ => trivial
    exact .modify (fun _ => rfl) fun _ => List.prefix_rfl
  | empty => exact (reportAt_yields _ _).steady

theorem forEach_yields (start : Nat) {head : ForHead} (unclaimed : Option Nat) (isAwait isOf : Bool) :
    (forEach sub start head unclaimed isAwait isOf).Yields fun c t => head.Sound I → t.SoundAlone I c.targets := by
  refine next_steady.seq fun _ => (checkForTarget_steady _ _ _).seq fun _ => ?_
  refine (Yields.withIn (.ite (fun _ => h.assignment) fun _ => expression_yields h)).bind fun source => ?_
  refine (expect_steady _).seq fun _ => (loopBody_yields h).bind fun body => .ite (fun _ => .pure ?_) fun _ => ?_
  · exact fun _ hb hs hh _ => ⟨trivial, hh _, Expr.sound_iff.2 hs, hb true⟩
  · refine .option (reportAt_yields _ _).steady (.pure fun _ hb hs hh => ?_)
    exact fun _ => ⟨trivial, hh _, Expr.sound_iff.2 hs, hb true⟩

theorem forLoop_yields (start : Nat) {head : ForHead} (isAwait : Bool) :
    (forLoop sub start head isAwait).Yields fun c t => head.Sound I → t.SoundAlone I c.targets := by
  have hparts : Yields (do
      let test ← if (← kind) = .semicolon then pure none else some <$> expression sub
      expect .semicolon
      let update ← if (← kind) = .rightParen then pure none else some <$> expression sub
      return (test, update)) fun _ r => (∀ e ∈ r.1, Expr.Sound I e) ∧ ∀ e ∈ r.2, Expr.Sound I e := by
    refine kind_steady.seq fun _ => ?_
    extract_lets rest
    have hrest (test : Option Expr) : (rest test).Yields fun _ r => (∀ e ∈ test, e.Sound I) →
        (∀ e ∈ r.1, Expr.Sound I e) ∧ ∀ e ∈ r.2, Expr.Sound I e := by
      refine (expect_steady _).seq fun _ => kind_steady.seq fun _ => ?_
      have hpair (update : Option Expr) : Yields (pure (test, update)) fun _ r => (∀ e ∈ update, e.Sound I) →
          (∀ e ∈ test, e.Sound I) → (∀ e ∈ r.1, Expr.Sound I e) ∧ ∀ e ∈ r.2, Expr.Sound I e :=
        .pure fun _ hu ht => ⟨ht, hu⟩
      exact .ite (fun _ => .bindNone hpair) fun _ => .bindSome (expression_yields h) hpair
    exact .ite (fun _ => .bindNone hrest) fun _ => .bindSome (expression_yields h) hrest
  unfold forLoop
  refine .option (reportAt_yields _ _).steady ?_
  beta_reduce
  extract_lets -underBinder rest
  have hrest : (rest ()).Yields fun c t => head.Sound I → t.SoundAlone I c.targets := by
    refine (expect_steady _).seq fun _ => hparts.withIn.bind fun r => (expect_steady _).seq fun _ => ?_
    refine (loopBody_yields h).bind fun body => .pure fun _ hb hr hh => ?_
    exact fun _ => ⟨trivial, hh _, Expr.foldOpt_sound hr.1 _, Expr.foldOpt_sound hr.2 _, hb true⟩
  clear_value rest
  cases head with
  | decl kind list => exact (checkInitializers_steady _ _ _).seq fun _ => hrest
  | empty => exact hrest
  | expr e => exact hrest

theorem forStatement_yields : (forStatement sub).Yields fun c t => t.SoundAlone I c.targets := by
  refine token_steady.seq fun t => (expect_steady _).seq fun _ => kind_steady.seq fun _ => ?_
  extract_lets -underBinder rest
  have hrest (isAwait : Bool) : (rest isAwait).Yields fun c t => t.SoundAlone I c.targets := by
    refine (expect_steady _).seq fun _ => .seq (.read id) fun s => ((forHead_yields h).inSetting _ _).bind fun head => ?_
    refine kind_steady.seq fun _ => .ite (fun _ => forEach_yields h ..) fun _ => (isWord_steady _).seq fun _ => ?_
    exact .ite (fun _ => forEach_yields h ..) fun _ => forLoop_yields h ..
  refine .ite (fun _ => context_yields.steady.seq fun _ => .option unexpectedHere_yields.steady ?_) fun _ => hrest false
  exact next_steady.seq fun _ => hrest true

/-- A label is one of the labels around, where one is found. -/
theorem jumpLabel_yields :
    jumpLabel.Yields fun c label => (∀ id ∈ label, id.name ∈ c.labels) ∧ ∀ id ∈ label, I id := by
  refine token_steady.seq fun t => .ite (fun _ => .pure fun _ => ⟨nofun, nofun⟩) fun _ => ?_
  refine h.identifier.bind fun label => context_yields.bind fun c => .when (report_yields _) (.pure ?_)
  intro c' hreport hc hid
  subst hc
  exact ⟨by simpa using hreport, by simpa using hid⟩

theorem continueStatement_yields : continueStatement.Yields fun c t => t.SoundAlone I c.targets := by
  refine (expect_steady _).seq fun _ => (jumpLabel_yields h).bind fun label => context_yields.bind fun c => ?_
  refine .when (report_yields _) (semicolon_steady.seq fun _ => .pure fun c' hreport hc hlabel => ?_)
  subst hc
  have hloop : c.inLoop = true := by simpa using hreport
  refine fun _ => ⟨?_, Fold.sound_optIdent hlabel.2 _ _⟩
  cases label with
  | none => exact hloop
  | some label => exact ⟨hlabel.1 label rfl, hloop⟩

theorem breakStatement_yields : breakStatement.Yields fun c t => t.SoundAlone I c.targets := by
  refine (expect_steady _).seq fun _ => (jumpLabel_yields h).bind fun label => context_yields.bind fun c => ?_
  refine .when (report_yields _) (semicolon_steady.seq fun _ => .pure fun c' hreport hc hlabel => ?_)
  subst hc
  refine fun _ => ⟨?_, Fold.sound_optIdent hlabel.2 _ _⟩
  cases label with
  | none => simpa [Context.targets, Stmt.Hits, Decidable.or_iff_not_imp_left] using hreport
  | some label => exact hlabel.1 label rfl

theorem returnStatement_yields : (returnStatement sub).Yields fun c t => t.SoundAlone I c.targets := by
  refine context_yields.bind fun c => .when (report_yields _) ((expect_steady _).seq fun _ => token_steady.seq fun _ => ?_)
  have hrest (arg : Option Expr) : Yields (do semicolon; return Stmt.ret arg) fun c' t => (∀ e ∈ arg, e.Sound I) →
      ((!c.inFunction) = true → False) → c = c' → t.SoundAlone I c'.targets := by
    refine semicolon_steady.seq fun _ => .pure fun c' ha hreport hc _ => ⟨?_, Expr.foldOpt_sound ha _⟩
    subst hc
    simpa [Stmt.Hits, Context.targets] using hreport
  exact .ite (fun _ => .bindNone hrest) fun _ => .bindSome (expression_yields h) hrest

theorem throwStatement_yields : (throwStatement sub).Yields fun c t => t.SoundAlone I c.targets := by
  refine (expect_steady _).seq fun _ => token_steady.seq fun _ => .option (report_yields _).steady ?_
  refine (expression_yields h).bind fun e => semicolon_steady.seq fun _ => .pure fun _ he _ => ?_
  exact ⟨trivial, Expr.sound_iff.2 he⟩

theorem catchParam_yields : (catchParam sub).Yields fun _ r => ∀ p ∈ r, Pattern.Sound I p := by
  refine (accept_steady _).seq fun _ => .ite (fun _ => ?_) fun _ => .pure nofun
  exact h.target.bind fun p => (expect_steady _).seq fun _ => .pure fun _ hp => by simpa using hp

theorem tryStatement_yields : (tryStatement sub).Yields fun c t => t.SoundAlone I c.targets := by
  refine (expect_steady _).seq fun _ => (block_yields h).bind fun body => (accept_steady _).seq fun _ => ?_
  extract_lets -underBinder rest
  have hrest (handler : Option (Option Pattern × List Stmt)) : (rest handler).Yields fun c t =>
      (∀ k ∈ handler, (∀ p ∈ k.1, Pattern.Sound I p) ∧ ∀ t ∈ k.2, Stmt.Sound I c.targets t) →
        (∀ t ∈ body, t.Sound I c.targets) → t.SoundAlone I c.targets := by
    refine (accept_steady _).seq fun _ => ?_
    extract_lets -underBinder rest
    have hrest (finalizer : Option (List Stmt)) : (rest finalizer).Yields fun c t =>
        (∀ ts ∈ finalizer, ∀ t ∈ ts, Stmt.Sound I c.targets t) →
        (∀ k ∈ handler, (∀ p ∈ k.1, Pattern.Sound I p) ∧ ∀ t ∈ k.2, Stmt.Sound I c.targets t) →
        (∀ t ∈ body, t.Sound I c.targets) → t.SoundAlone I c.targets := by
      simp only [rest]
      split
      · refine .pure fun _ hf hk hb _ => ⟨trivial, Stmt.foldList_sound.2 hb, ?_⟩
        obtain ⟨hparam, hhandler⟩ := hk _ rfl
        exact ⟨Pattern.foldOpt_sound hparam _ _, Stmt.foldList_sound.2 hhandler, Stmt.foldOptList_sound hf⟩
      · exact .pure fun _ hf _ hb _ => ⟨trivial, Stmt.foldList_sound.2 hb, Stmt.foldList_sound.2 (hf _ rfl)⟩
      · exact .faulty (report_yields _) (.pure fun _ => trivial)
    exact .ite (fun _ => .bindSome (block_yields h) hrest) fun _ => .bindNone hrest
  refine .ite (fun _ => (catchParam_yields h).bind fun param => ?_) fun _ => .bindNone hrest
  refine .bindSome (P := fun c k => (∀ p ∈ param, Pattern.Sound I p) → (∀ p ∈ k.1, Pattern.Sound I p) ∧
    ∀ t ∈ k.2, Stmt.Sound I c.targets t) (.map ((block_yields h).mono fun _ _ hb hp => ⟨hp, hb⟩)) fun handler => ?_
  exact (hrest handler).mono fun _ _ ht hk hp hb => ht (fun k hk' => hk k hk' hp) hb

omit h in
theorem inClause_steady : inClause.Steady := .read _

theorem switchCase_yields (hasDefault : Bool) :
    (switchCase sub hasDefault).Yields fun c r => Case.Sound I c.targets r.1 := by
  refine kind_steady.seq fun _ => ?_
  extract_lets -underBinder isDefault rest
  have hrest (test : Option Expr) :
      (rest test).Yields fun c r => (∀ e ∈ test, e.Sound I) → Case.Sound I c.targets r.1 := by
    refine (expect_steady _).seq fun _ => (Yields.many (I := fun c ts => ∀ t ∈ ts, Stmt.Sound I c.targets t)
      inClause_steady (fun ts => ?_) _ []).bind fun ts => .pure fun _ hts ht => ⟨Expr.foldOpt_sound ht _, ?_⟩
    · exact h.item.bind fun t => .pure fun _ ht hts => List.forall_mem_cons.2 ⟨ht, hts⟩
    · exact Stmt.foldList_sound.2 (by simpa using hts (by simp))
  refine .ite (fun _ => .option (report_yields _).steady (next_steady.seq fun _ => .bindNone hrest)) fun _ => ?_
  exact (expect_steady _).seq fun _ => .bindSome (expression_yields h).withIn hrest

/-- A `switch` is a target in its clauses. -/
theorem switchStatement_yields : (switchStatement sub).Yields fun c t => t.SoundAlone I c.targets := by
  refine (expect_steady _).seq fun _ => (headExpr_yields h).bind fun subject => (expect_steady _).seq fun _ => ?_
  refine ((Yields.many (I := fun c r => ∀ k ∈ r.1, Case.Sound I c.targets k) (isOpen_steady _) (fun r => ?_) _
    ([], false)).inSetting _ _).bind fun r => (expect_steady _).seq fun _ => .pure fun _ hr hs => ?_
  · refine (switchCase_yields h r.2).bind fun k => .pure fun _ hk hr => ?_
    exact List.forall_mem_cons.2 ⟨hk, hr⟩
  · refine fun _ => ⟨trivial, Expr.sound_iff.2 hs, Case.foldList_sound.2 fun k hk => ?_⟩
    exact hr (by simp) k (List.mem_reverse.1 hk)

/-- A labelled statement is a target in its body. -/
theorem labelledStatement_yields : (labelledStatement sub).Yields fun c t => t.SoundAlone I c.targets := by
  refine h.identifier.bind fun label => (expect_steady _).seq fun _ => context_yields.steady.seq fun _ => ?_
  refine .option (report_yields _).steady ((Yields.inLabel (P := fun c t => Stmt.SoundAlone I c.targets t) _ ?_).bind
    fun body => .pure fun _ hb hlabel _ => ⟨trivial, hlabel, hb true⟩)
  refine kind_steady.seq fun _ => .ite (fun _ => ?_) fun _ => subStatement_yields h
  exact (function_yields h _ _).bind fun f => .pure fun _ hf _ => ⟨trivial, Func.sound_iff.2 hf⟩

theorem expressionStatement_yields : (expressionStatement sub).Yields fun c t => t.SoundAlone I c.targets := by
  refine (expression_yields h).bind fun e => semicolon_steady.seq fun _ => .pure fun _ he _ => ?_
  exact ⟨trivial, Expr.sound_iff.2 he⟩

theorem nestedModuleItem_yields : (nestedModuleItem sub).Yields fun c t => t.SoundAlone I c.targets := by
  refine peek_steady.seq fun _ => kind_steady.seq fun _ => .ite (fun _ => ?_) fun _ => expressionStatement_yields h
  exact .faulty (report_yields _) (next_steady.seq fun _ => .pure fun _ => trivial)

theorem statement_yields : (statement sub).Yields fun c t => t.SoundAlone I c.targets := by
  refine kind_steady.seq fun k => ?_
  split
  · exact (block_yields h).bind fun body => .pure fun _ hb _ => ⟨trivial, Stmt.foldList_sound.2 hb⟩
  · exact next_steady.seq fun _ => .pure fun _ _ => ⟨trivial, trivial⟩
  · exact variableStatement_yields h
  · exact ifStatement_yields h
  · exact forStatement_yields h
  · exact whileStatement_yields h
  · exact doWhileStatement_yields h
  · exact continueStatement_yields h
  · exact breakStatement_yields h
  · exact returnStatement_yields h
  · exact throwStatement_yields h
  · exact tryStatement_yields h
  · exact switchStatement_yields h
  · exact next_steady.seq fun _ => semicolon_steady.seq fun _ => .pure fun _ _ => ⟨trivial, trivial⟩
  · exact .faulty (report_yields _) (next_steady.seq fun _ => .pure fun _ => trivial)
  · exact (function_yields h _ _).bind fun f => .pure fun _ hf _ => ⟨trivial, Func.sound_iff.2 hf⟩
  · refine .faulty unexpectedHere_yields ?_
    exact (classLiteral_yields h true).steady.seq fun _ => .pure fun _ => trivial
  · exact nestedModuleItem_yields h
  · exact nestedModuleItem_yields h
  · refine peek_steady.seq fun _ => .ite (fun _ => labelledStatement_yields h) fun _ => expressionStatement_yields h
  · exact expressionStatement_yields h

theorem declarationOrStatement_yields : (declarationOrStatement sub).Yields fun c t => t.Sound I c.targets := by
  have hfunc (async : Bool) : Yields (do return Stmt.func (← function sub true async)) fun c t => t.Sound I c.targets :=
    (function_yields h true async).bind fun f => .pure fun _ hf => ⟨trivial, Func.sound_iff.2 hf⟩
  refine kind_steady.seq fun k => ?_
  split
  · exact hfunc false
  · exact (classLiteral_yields h true).bind fun k => .pure fun _ hk => ⟨trivial, rfl, Class.sound_iff.2 (hk nofun)⟩
  · exact (decoratedClass_yields h true).bind fun k => .pure fun _ hk => ⟨trivial, rfl, Class.sound_iff.2 hk⟩
  · exact (variableStatement_yields h).mono fun _ _ ht => ht false
  · refine isLetDeclaration_steady.seq fun _ => .ite (fun _ => ?_) fun _ => ?_
    · exact (variableStatement_yields h).mono fun _ _ ht => ht false
    · refine isAsyncFunction_steady.seq fun _ => .ite (fun _ => ?_) fun _ => h.statement.mono fun _ _ ht => ht false
      exact next_steady.seq fun _ => hfunc true
  · exact h.statement.mono fun _ _ ht => ht false

theorem item_yields : (item sub).Yields fun c t => t.Sound I c.targets := by
  refine (declarationOrStatement_yields h).bind fun t => .seq (.read id) fun s => ?_
  split
  · refine (reportAt_yields _ _).steady.seq fun _ => .seq (.modify (fun _ => rfl) fun _ => List.prefix_rfl) fun _ => ?_
    exact .pure fun _ ht => ht
  · exact .pure fun _ ht => ht

/-! ### Modules -/

theorem production_yields (g : Goal) : (production sub g).Yields (g.Sound I) := by
  cases g with
  | assignment => exact assignment_yields h
  | binary above => exact binary_yields h above
  | unary => exact unary_yields h
  | leftHand => exact leftHand_yields h
  | newExpr => exact newExpr_yields h
  | target => exact target_yields h
  | statement => exact statement_yields h
  | item => exact item_yields h

omit h in
theorem Goal.default_sound (g : Goal) (c : Context) : g.Sound I c g.default := by
  cases g with
  | target => exact fun _ _ => trivial
  | statement => exact fun _ => ⟨trivial, trivial⟩
  | item => exact ⟨trivial, trivial⟩
  | _ => trivial

omit h in
/-- By induction on the bound: a goal whose bound is reached gives nothing that could jump. -/
theorem runGoal_sounds (hI : ∀ name, I { name }) (n : Nat) : Sub.Sounds ⟨n, runGoal n⟩ I := by
  induction n with
  | zero =>
    exact ⟨hI, fun g => Yields.starve_steady.seq fun _ => .pure fun c => g.default_sound c⟩
  | succ n ih => exact ⟨hI, fun g => production_yields ih g⟩

omit h in
theorem moduleSource_steady : moduleSource.Steady := by
  refine token_steady.seq fun t => .ite (fun _ => ?_) fun _ => next_steady.seq fun _ => .pure fun _ => trivial
  exact .faulty (unexpected_yields t) (next_steady.seq fun _ => .pure fun _ => trivial)

omit h in
theorem exportName_steady : exportName.Steady := by
  refine token_steady.seq fun t => .option (unexpected_yields t).steady ?_
  exact next_steady.seq fun _ => .pure fun _ => trivial

theorem importSpec_yields : importSpec.Yields fun _ spec => I spec.binder := by
  refine token_steady.seq fun t => exportName_steady.seq fun _ => (isWord_steady _).seq fun _ => .ite (fun _ => ?_) fun _ => ?_
  · exact next_steady.seq fun _ => h.identifier.bind fun _ => .pure fun _ hid => hid
  · exact .option (reportAt_yields _ _).steady (.pure fun _ => h.fresh _)

theorem importClause_yields (fuel : Nat) :
    (importClause fuel).Yields fun _ specs => ∀ spec ∈ specs, I (ImportSpec.binder spec) := by
  refine kind_steady.seq fun k => ?_
  split
  · refine next_steady.seq fun _ => (expectWord_steady _).seq fun _ => ?_
    exact h.identifier.bind fun _ => .pure fun _ hid => List.forall_mem_singleton.2 hid
  · refine next_steady.seq fun _ => (commaList_yields _ (importSpec_yields h) _).bind fun _ => ?_
    exact (expect_steady _).seq fun _ => .pure fun _ hspecs => hspecs
  · exact .faulty unexpectedHere_yields (.pure fun _ => trivial)

omit h in
theorem fromSource_steady : fromSource.Steady := by
  refine (expectWord_steady _).seq fun _ => moduleSource_steady.seq fun _ => ?_
  exact semicolon_steady.seq fun _ => .pure fun _ => trivial

omit h in
theorem Stmt.importDecl_sound {c : Targets} {specs : List ImportSpec} (hspecs : ∀ spec ∈ specs, I spec.binder)
    (source : StringLit) : (Stmt.importDecl specs source).Sound I c :=
  ⟨trivial, (Fold.sound_list (g := (Fold.sound I).all _) rfl fun _ _ => rfl).2 hspecs⟩

omit h in
theorem Stmt.exportNames_sound {c : Targets} {specs : List ExportSpec} (hspecs : ∀ spec ∈ specs, I spec.source)
    (source : Option StringLit) : (Stmt.exportNames specs source).Sound I c :=
  ⟨trivial, (Fold.sound_list (g := (Fold.sound I).all _) rfl fun _ _ => rfl).2 hspecs⟩

theorem importDeclaration_yields (fuel : Nat) : (importDeclaration fuel).Yields fun c t => t.Sound I c.targets := by
  have hsource (specs : List ImportSpec) : Yields (do return Stmt.importDecl specs (← fromSource)) fun c t =>
      (∀ spec ∈ specs, I spec.binder) → t.Sound I c.targets :=
    fromSource_steady.seq fun _ => .pure fun _ hspecs => Stmt.importDecl_sound hspecs _
  refine (expect_steady _).seq fun _ => kind_steady.seq fun _ => .ite (fun _ => ?_) fun _ => ?_
  · refine moduleSource_steady.seq fun _ => semicolon_steady.seq fun _ => .pure fun _ => ?_
    exact Stmt.importDecl_sound nofun _
  refine isBindingName_steady.seq fun _ => .ite (fun _ => h.identifier.bind fun binder => ?_) fun _ => ?_
  · refine (accept_steady _).seq fun _ => .ite (fun _ => ?_) fun _ => ?_
    · refine (importClause_yields h fuel).bind fun _ => (hsource _).mono fun _ _ ht hspecs hid => ?_
      exact ht (List.forall_mem_cons.2 ⟨hid, hspecs⟩)
    · exact (hsource _).mono fun _ _ ht hid => ht (List.forall_mem_singleton.2 hid)
  · exact (importClause_yields h fuel).bind fun _ => hsource _

theorem exportSpec_yields : exportSpec.Yields fun _ r => I r.1.source := by
  refine token_steady.seq fun t => exportName_steady.seq fun _ => (isWord_steady _).seq fun _ => .ite (fun _ => ?_) fun _ => ?_
  · exact next_steady.seq fun _ => exportName_steady.seq fun _ => .pure fun _ => h.fresh _
  · exact .pure fun _ => h.fresh _

omit h in
theorem checkLocals_steady (ts : List Token) : (checkLocals ts).Steady := by
  induction ts with
  | nil => exact .pure fun _ => trivial
  | cons t ts ih =>
    unfold checkLocals
    exact .option (unexpected_yields t).steady ih

theorem exportSpecifiers_yields (fuel : Nat) : (exportSpecifiers fuel).Yields fun c t => t.Sound I c.targets := by
  refine (expect_steady _).seq fun _ => (commaList_yields _ (exportSpec_yields h) _).bind fun specs => ?_
  refine (expect_steady _).seq fun _ => (isWord_steady _).seq fun _ => ?_
  have hrest (source : Option StringLit) : Yields (do
      semicolon
      return Stmt.exportNames (specs.map Prod.fst) source) fun c t =>
        (∀ r ∈ specs, I r.1.source) → t.Sound I c.targets :=
    semicolon_steady.seq fun _ => .pure fun _ hspecs => Stmt.exportNames_sound (List.forall_mem_map.2 hspecs) _
  refine .ite (fun _ => next_steady.seq fun _ => .seq (.map moduleSource_steady) hrest) fun _ => ?_
  exact (checkLocals_steady _).seq fun _ => hrest none

omit h in
theorem exportNamespace_yields : exportNamespace.Yields fun c t => t.Sound I c.targets := by
  have hrest (name : Option String) : Yields (do return Stmt.exportAll name (← fromSource)) fun c t => t.Sound I c.targets :=
    fromSource_steady.seq fun _ => .pure fun _ => ⟨trivial, trivial⟩
  refine next_steady.seq fun _ => (isWord_steady _).seq fun _ => .ite (fun _ => ?_) fun _ => hrest none
  exact next_steady.seq fun _ => .seq (.map exportName_steady) hrest

theorem exportDefault_yields : (exportDefault sub).Yields fun c t => t.Sound I c.targets := by
  have hfunc (async : Bool) : Yields (do return Stmt.exportDefault (.func (← function sub false async))) fun c t =>
      t.Sound I c.targets :=
    (function_yields h false async).bind fun f => .pure fun _ hf => ⟨trivial, trivial, Func.sound_iff.2 hf⟩
  refine kind_steady.seq fun k => ?_
  split
  · exact hfunc false
  · refine (classLiteral_yields h false).bind fun k => .pure fun _ hk => ?_
    exact ⟨trivial, trivial, rfl, Class.sound_iff.2 (hk nofun)⟩
  · refine (decorators_yields h).bind fun decs => (classLiteral_yields h false).bind fun k => .pure fun _ hk hd => ?_
    exact ⟨trivial, trivial, rfl, Class.sound_iff.2 (hk hd)⟩
  · refine isAsyncFunction_steady.seq fun _ => .ite (fun _ => next_steady.seq fun _ => hfunc true) fun _ => ?_
    refine h.assignment.bind fun e => semicolon_steady.seq fun _ => .pure fun _ he => ?_
    exact ⟨trivial, Expr.sound_iff.2 he⟩

theorem plainExport_yields : (plainExport sub).Yields fun c t => t.Sound I c.targets := by
  have hvar : Yields (do return Stmt.exportDecl (← variableStatement sub)) fun c t => t.Sound I c.targets :=
    (variableStatement_yields h).bind fun t => .pure fun _ ht => ⟨trivial, ht false⟩
  have hfunc (async : Bool) : Yields (do return Stmt.exportDecl (.func (← function sub true async))) fun c t =>
      t.Sound I c.targets :=
    (function_yields h true async).bind fun f => .pure fun _ hf => ⟨trivial, trivial, Func.sound_iff.2 hf⟩
  refine kind_steady.seq fun k => ?_
  split
  · exact next_steady.seq fun _ => exportDefault_yields h
  · exact exportNamespace_yields
  · exact exportSpecifiers_yields h _
  · exact hvar
  · exact hvar
  · exact hfunc false
  · refine (classLiteral_yields h true).bind fun k => .pure fun _ hk => ?_
    exact ⟨trivial, trivial, rfl, Class.sound_iff.2 (hk nofun)⟩
  · refine isLetDeclaration_steady.seq fun _ => .ite (fun _ => hvar) fun _ => (isWord_steady _).seq fun _ => ?_
    refine .ite (fun _ => next_steady.seq fun _ => hfunc true) fun _ => ?_
    exact .faulty unexpectedHere_yields (next_steady.seq fun _ => .pure fun _ => trivial)

theorem exportDeclaration_yields {decs : List Expr} :
    (exportDeclaration sub decs).Yields fun c t => (∀ e ∈ decs, Expr.Sound I e) → t.Sound I c.targets := by
  refine (expect_steady _).seq fun _ => kind_steady.seq fun _ => ?_
  extract_lets -underBinder rest
  have hrest (decs : List Expr) :
      (rest decs).Yields fun c t => (∀ e ∈ decs, Expr.Sound I e) → t.Sound I c.targets := by
    refine .ite (fun _ => (plainExport_yields h).mono fun _ _ ht _ => ht) fun _ => kind_steady.seq fun _ => ?_
    split
    · refine (classLiteral_yields h true).bind fun k => .pure fun _ hk hd => ?_
      exact ⟨trivial, trivial, rfl, Class.sound_iff.2 (hk hd)⟩
    · refine next_steady.seq fun _ => (classLiteral_yields h false).bind fun k => .pure fun _ hk hd => ?_
      exact ⟨trivial, trivial, rfl, Class.sound_iff.2 (hk hd)⟩
    · exact .faulty unexpectedHere_yields (plainExport_yields h).steady
  refine .ite (fun _ => ?_) fun _ => hrest decs
  exact (decorators_yields h).bind fun decs => (hrest decs).mono fun _ _ ht hd _ => ht hd

theorem moduleItem_yields : (moduleItem sub).Yields fun c t => t.Sound I c.targets := by
  refine kind_steady.seq fun k => ?_
  split
  · exact peek_steady.seq fun _ => .ite (fun _ => importDeclaration_yields h _) fun _ => h.item
  · exact (exportDeclaration_yields h).mono fun _ _ ht => ht nofun
  · refine .checkpoint fun s₀ => .bind (decorators_yields h) fun decs => .bind kind_steady fun _ => ?_
    refine .ite (.resume ?_) (.restore h.item)
    exact (exportDeclaration_yields h).mono fun _ _ ht hd => ht hd.1.2
  · exact h.item

theorem program_yields : (program sub).Yields fun c ts => ∀ t ∈ ts, Stmt.Sound I c.targets t :=
  itemList_yields _ (moduleItem_yields h) _

end Parser

/-- A text is a program if its items are read without a fault. -/
theorem Program.parse_ok {text : String} {p : Program} (h : Program.parse text = .ok p) :
    ∃ s, Parser.program ⟨Parser.fuelFor text, Parser.runGoal (Parser.fuelFor text)⟩ (.ofString text) = (p.body, s) ∧
      s.faults = [] := by
  simp only [Program.parse] at h
  split at h
  next body s hrun =>
    split at h
    · cases h
      exact ⟨s, hrun, List.isEmpty_iff.1 ‹_›⟩
    · cases h

/-- What is parsed without a fault is sound: its jumps have their targets, its classes stand in lists, and
whatever holds of the identifiers that the parser makes holds of all of them. -/
theorem Program.sound_of_parse {I : Ident → Prop} (hI : ∀ name, I { name }) {text : String} {p : Program}
    (h : Program.parse text = .ok p) : p.fold (Fold.sound I) ({}, false) := by
  obtain ⟨s, hrun, hs⟩ := Program.parse_ok h
  have hy := Parser.program_yields (Parser.runGoal_sounds hI (Parser.fuelFor text))
  have hle := hy.faults_le (.ofString text)
  have hp := hy.result (.ofString text)
  rw [hrun, hs] at hle hp
  exact Stmt.foldList_sound.2 (hp (Nat.le_antisymm (Nat.zero_le _) hle))

/-- Every jump of a program that is parsed without a fault has its target. -/
theorem Program.aimed_of_parse {text : String} {p : Program} (h : Program.parse text = .ok p) : p.Aimed :=
  Program.fold_related Fold.aimed_sound p _ (Program.sound_of_parse (I := fun _ => True) (fun _ => trivial) h)

end Deadwood
