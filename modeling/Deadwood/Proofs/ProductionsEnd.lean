import Deadwood.Proofs.Progress

/-!
# Every production ends

A production runs others at the token it began at only if they are lower in the grammar, and any production
behind a token it has passed.
-/

namespace Deadwood.Parser

/-- The bound `n` has room for a goal with `l` bytes ahead.  What follows `new` is looked at only where `new` is
ahead. -/
def Goal.Fits (n : Nat) : Goal → Nat → Prop
  | .target => Room n 2
  | .newExpr => Ahead n 9
  | .leftHand => Room n 3
  | .unary => Room n 4
  | .binary _ => Room n 5
  | .assignment => Room n 6
  | .statement => Room n 7
  | .item => Room n 8

/-- The productions end where the bound has room for them. -/
def Sub.Fits (sub : Sub) : Prop := ∀ g, (sub.run g).Ends (g.Fits sub.fuel) always

variable {α : Type} {sub : Sub} (h : sub.Fits)

include h

namespace Sub.Fits

theorem target : sub.target.Ends (Room sub.fuel 2) always := h .target

theorem newExpr : sub.newExpr.Ends (Ahead sub.fuel 9) always := h .newExpr

theorem leftHand : sub.leftHand.Ends (Room sub.fuel 3) always := h .leftHand

theorem unary : sub.unary.Ends (Room sub.fuel 4) always := h .unary

theorem binary (above : Nat) : (sub.binary above).Ends (Room sub.fuel 5) always := h (.binary above)

theorem assignment : sub.assignment.Ends (Room sub.fuel 6) always := h .assignment

theorem statement : sub.statement.Ends (Room sub.fuel 7) always := h .statement

theorem item : sub.item.Ends (Room sub.fuel 8) always := h .item

end Sub.Fits

omit h

variable {m : Parser α} {n b c : Nat} {P : α → Nat → Prop}

/-- There is more room further out. -/
theorem Ends.inside (hm : m.Ends (Room n b) P) (hb : b ≤ c) : m.Ends (Room n c) P := hm.weaken (Room.mono hb)

theorem Ends.acceptInside {k : TokenKind} {m m' : Parser α} (hk : k ≠ .eof) (hm : m.Ends (Room n 8) Parser.never)
    (hm' : m'.Ends (Room n 8) P) : (accept k >>= fun b => if b = true then m else m').Ends (Room n 8) P :=
  .acceptOr hk (Room.mono (by decide)) hm hm'

theorem Takes.inside (hm : m.Takes (Ahead n 8)) : m.Takes (Room n 8) := hm.weaken Room.behind

include h

/-! ### Lists -/

theorem expression_ends : (expression sub).Ends (Room sub.fuel 6) always := by
  refine h.assignment.first fun first => kind_ends.seq fun _ => .ite (fun _ => .done) fun _ => ?_
  refine (Ends.manyAt (f := fun s => s.token.kind = .comma && !s.failed) (fun _ => rfl) (fun s hs => ?_) (fun es => ?_)
    (Room.turns (by decide)) []).seq fun es => .done
  · rw [Bool.and_eq_true, decide_eq_true_iff] at hs
    exact ⟨hs.1 ▸ by decide, by simpa using hs.2⟩
  · exact next_ends.seq fun _ => h.assignment.first fun _ => .done

theorem spreadable_ends : (spreadable sub).Ends (Room sub.fuel 6) always := by
  refine (accept_ends _).seq fun _ => .ite (fun _ => ?_) fun _ => h.assignment
  exact h.assignment.first fun _ => .done

omit h in
/-- Something between two tokens. -/
theorem bracketed_takes {m : Parser α} (opening closing : TokenKind) (hm : m.Ends (Room n 8) P) :
    Takes (do
      expect opening
      let a ← withIn m
      expect closing
      return a) (Ahead n 8) :=
  (expect_takes _).take (T := never) fun _ => hm.withIn.seq fun _ => (expect_ends _).seq fun _ => .done

theorem arguments_takes : (arguments sub).Takes (Ahead sub.fuel 8) :=
  bracketed_takes _ _ (commaList_ends _ ((spreadable_ends h).inside (by decide)) (Room.turns (by decide)))

theorem computedKey_takes : (computedKey sub).Takes (Ahead sub.fuel 8) :=
  bracketed_takes _ _ ((expression_ends h).inside (by decide))

theorem parenthesized_takes : (parenthesized sub).Takes (Ahead sub.fuel 8) := by
  refine next_takes.take (T := never) fun _ => ((expression_ends h).inside (by decide)).withIn.seq fun _ => ?_
  exact (expect_ends _).seq fun _ => .done

/-! ### Literals -/

omit h in
/-- The slash that opens a regular expression is read again with all of it. -/
theorem regExpLiteral_takes {R : Nat → Prop} : regExpLiteral.Takes R := by
  let reread (s : State) (faults : List Fault) : State :=
    { s with token := { s.token with finish := (scanRegExp s.token.start).cursor }, faults }
  have hreread (s : State) (faults : List Fault) (hs : s.token.Sound) : (reread s faults).token.Sound :=
    ⟨(scanRegExp_passes _).leads, hs.atEnd⟩
  have hrun (s : State) : ∃ faults, s.faults.length ≤ faults.length ∧
      (regExpLiteral s).2 = (next (reread s faults)).2 := by
    refine ⟨_, ?_, rfl⟩
    rw [List.append_assoc, List.length_append]
    exact Nat.le_add_right _ _
  constructor
  · intro s hs hr
    obtain ⟨faults, hfaults, hnext⟩ := hrun s
    have hle : s.Leads (reread s faults) := ⟨hreread s faults hs, Nat.le_refl _, hfaults, rfl⟩
    rw [hnext]
    exact hle.trans (next_takes.leads _ hle.sound hr)
  · intro s hs hr
    obtain ⟨faults, -, hnext⟩ := hrun s
    rw [hnext]
    exact next_takes.left (reread s faults) (hreread s faults hs) hr

omit h in
/-- Where a template goes on, there is a brace. -/
theorem resume_ends {R : Nat → Prop} (a b : α) : Ends (do
      if (← kind) ≠ .rightBrace then
        unexpectedHere
        return (a, false)
      resumeTemplate
      return (b, true)) R fun r l => r.2 = true ∧ l = 0 := by
  have hrun (s : State) (hk : s.token.kind = .rightBrace) (hs : s.token.Sound) : s.Leads (resumeTemplate s).2 := by
    have hrest : s.token.start.rest ≠ [] := fun hend => by cases hk.symm.trans (hs.atEnd hend)
    have hread := Token.resumeTemplate_readAt hrest
    refine ⟨hread.sound, ?_, (List.prefix_append _ _).length_le, rfl⟩
    · show s.token.resumeTemplate.1.start.left ≤ s.left
      rw [hread.start]
      exact Nat.le_refl _
  constructor
  · intro s hs hr
    show s.Leads ((if s.token.kind ≠ .rightBrace then _ else _ : Parser (α × Bool)) s).2
    split
    · exact (unexpectedHere_ends.seq fun _ => Ends.done).leads s hs hr
    · exact hrun s (Decidable.not_not.1 ‹_›) hs
  · rintro s hs hr ⟨hmore, hzero⟩
    change ((if s.token.kind ≠ .rightBrace then _ else _ : Parser (α × Bool)) s).1.2 = true at hmore
    split at hmore
    · cases hmore
    · next hk =>
      have hpos := State.left_pos hs fun heof => hk (by rw [heof]; decide)
      omega

/-- A template is read unless parsing has failed. -/
theorem templateLiteral_ends (tag : Option Expr) : (templateLiteral sub tag).Ends (Ahead sub.fuel 8) always := by
  refine Ends.first (Takes.manyOnward (fun _ => rfl) (fun r => ?_) (fun r => ?_) Ahead.turns _) fun r => .done
  · refine .after token_ends fun t => next_takes.take (T := never) fun _ => .ite (fun _ => .done) fun _ => ?_
    exact ((expression_ends h).inside (by decide)).withIn.seq fun e => (resume_ends _ _).never
  · refine token_ends.seq fun t => next_takes.onward fun _ => .ite (fun _ => ?_) fun _ => ?_
    · exact .pure fun _ hp => nomatch hp.1
    exact ((expression_ends h).inside (by decide)).withIn.seq fun e => resume_ends _ _

theorem arrayLiteral_takes : (arrayLiteral sub).Takes (Ahead sub.fuel 8) := by
  refine (expect_takes _).take (T := never) fun _ => Ends.seq (P := never) (.withIn ?_) fun _ => ?_
  rotate_left
  · exact (expect_ends _).seq fun _ => .done
  refine Ends.manyAt (fun _ => rfl) (fun _ => isOpen_live) (fun elems => ?_) (Room.turns (by decide)) []
  refine .acceptInside (by decide) .done ?_
  refine ((spreadable_ends h).inside (by decide)).first fun e => kind_ends.seq fun _ => ?_
  exact .option (expect_ends _) .done

theorem propertyKey_ends : (propertyKey sub).Ends (Room sub.fuel 8) always := by
  refine token_ends.seq fun t => ?_
  split
  · refine next_ends.first fun _ => (h.assignment.inside (by decide)).withIn.seq fun _ => ?_
    exact (expect_ends _).seq fun _ => .done
  · exact next_ends.first fun _ => .done
  · exact next_ends.first fun _ => .done
  · refine .ite (fun _ => context_ends.seq fun _ => ?_) fun _ => ?_
    · exact .option (unexpected_ends t) (next_ends.first fun _ => .done)
    · exact (unexpected_ends t).seq fun _ => next_ends.first fun _ => .done

/-! ### Functions -/

theorem bindingElement_ends : (bindingElement sub).Ends (Room sub.fuel 8) always := by
  refine (h.target.inside (by decide)).first fun _ => (accept_ends _).seq fun _ => .ite (fun _ => ?_) fun _ => .done
  exact (h.assignment.inside (by decide)).seq fun _ => .done

theorem parameters_takes : (parameters sub).Takes (Ahead sub.fuel 8) := by
  refine (expect_takes _).take (T := never) fun _ => Ends.seq (P := never) (.withIn ?_) fun _ => ?_
  rotate_left
  · exact (expect_ends _).seq fun _ => .done
  refine Ends.manyAt (fun _ => rfl) (fun _ => isOpen_live) (fun r => ?_) (Room.turns (by decide)) _
  refine .acceptInside (by decide) ?_ ?_
  · exact (h.target.inside (by decide)).seq fun _ => kind_ends.seq fun _ => .option (report_ends _) .done
  · exact (bindingElement_ends h).first fun _ => kind_ends.seq fun _ => .option (expect_ends _) .done

theorem block_takes : (block sub).Takes (Ahead sub.fuel 8) := by
  refine (expect_takes _).take (T := never) fun _ => (itemList_ends _ h.item (Room.turns (by decide))).seq fun _ => ?_
  exact (expect_ends _).seq fun _ => .done

theorem functionRest_ends (name : Option Ident) (async generator : Bool) :
    (functionRest sub name async generator).Ends (Room sub.fuel 8) never := by
  refine Ends.inFunction _ _ ((parameters_takes h).inside.ends.seq fun r => ?_)
  exact (block_takes h).inside.ends.seq fun _ => .done

theorem function_takes (declaration async : Bool) : (function sub declaration async).Takes (Ahead sub.fuel 8) := by
  refine (expect_takes _).take (T := never) fun _ => (accept_ends _).seq fun generator => kind_ends.seq fun _ => ?_
  refine .ite (fun _ => ?_) fun _ => .ite (fun _ => ?_) fun _ => ?_
  · exact Ends.done.seq fun _ => functionRest_ends h _ _ _
  · exact .seq (.map identifier_ends) fun _ => functionRest_ends h _ _ _
  · exact .seq (.map (identifier_ends.inSetting _ _)) fun _ => functionRest_ends h _ _ _

theorem method_ends (async generator : Bool) : (method sub async generator).Ends (Room sub.fuel 8) never :=
  functionRest_ends h none async generator

omit h in
theorem checkAccessor_ends {R : Nat → Prop} (kind : MemberKind) (f : Func) (offset : Nat) :
    (checkAccessor kind f offset).Ends R never := by
  unfold checkAccessor
  split
  · exact .ite (fun _ => reportAt_ends _ _) fun _ => .done
  · exact .ite (fun _ => reportAt_ends _ _) fun _ => .done
  · exact .done

theorem arrowBody_ends (params : List Declarator) (rest : Option Pattern) (async : Bool) :
    (arrowBody sub params rest async).Ends (Room sub.fuel 8) never := by
  refine (expect_ends _).seq fun _ => Ends.inFunction _ _ (kind_ends.seq fun _ => .ite (fun _ => ?_) fun _ => ?_)
  · exact (block_takes h).inside.ends.seq fun _ => .done
  · exact (h.assignment.inside (by decide)).seq fun _ => .done

theorem singleArrow_ends (param : Ident) (async : Bool) :
    (singleArrow sub param async).Ends (Room sub.fuel 8) never :=
  arrowBody_ends h _ _ async

theorem arrowParameters_takes (async : Bool) : (arrowParameters sub async).Takes (Ahead sub.fuel 8) := by
  cases async with
  | true => exact next_takes.take fun _ => (parameters_takes h).inside.ends
  | false => exact parameters_takes h

theorem listArrow?_ends (async : Bool) : (listArrow? sub async).Ends (Ahead sub.fuel 8) found := by
  have hbody (r : List Declarator × Option Pattern) :
      Ends (do return some (← arrowBody sub r.1 r.2 async)) (Room sub.fuel 8) never :=
    (arrowBody_ends h _ _ _).seq fun _ => .done
  have hback (c : Prop) [Decidable c] (m m' : Parser (Option Expr)) (s : State) :
      (if c then m else m') s = m' s ∨ (if c then m else m') s = m s := by
    split
    · exact .inr rfl
    · exact .inl rfl
  exact Takes.attempt (arrowParameters_takes h async) hbody fun c r s => hback _ _ _ s

omit h in
theorem arrow?_eof {s : State} (hs : s.token.kind = .eof) : arrow? sub s = (none, s) := by
  obtain ⟨⟨kind, _, _, _, _, _, _, _, _⟩, _, _, _, _⟩ := s
  cases hs
  rfl

theorem arrow?_ends : (arrow? sub).Ends (Room sub.fuel 5) found := by
  have hsingle (param : Ident) (async : Bool) :
      Ends (do return some (← singleArrow sub param async)) (Room sub.fuel 8) never :=
    (singleArrow_ends h param async).seq fun _ => .done
  refine .unlessEnd (c := 8) (fun s hs => ⟨none, arrow?_eof hs, fun _ hp => nomatch hp.1⟩) ?_
    (Room.ahead (by decide))
  refine Ends.mono (P := found) ?_ (fun _ => id) fun _ _ => And.left
  refine isBindingName_ends.seq fun _ => .ite (fun _ => ?_) fun _ => ?_
  · refine peek_ends.seq fun t => (isWord_ends _).seq fun _ => ?_
    refine .ite (fun _ => listArrow?_ends h true) fun _ => .ite (fun _ => ?_) fun _ => ?_
    · let resume (c : Checkpoint) (param : Ident) : Parser (Option Expr) := do
        let arrow ← token
        if arrow.kind = .arrow && !arrow.onNewLine then return some (← singleArrow sub param true)
        restore c
        return none
      refine Takes.attempt (m := next >>= fun _ => identifier) (k := resume) (next_takes.take fun _ => identifier_ends)
        (fun param => hsingle param true) fun _ param s' => ?_
      show (if _ then _ else _ : Parser (Option Expr)) s' = _ ∨ (if _ then _ else _ : Parser (Option Expr)) s' = _
      split
      · exact .inl rfl
      · exact .inr rfl
    · refine .ite (fun _ => .pure fun _ hp => nomatch hp.1) fun _ => ?_
      exact (identifier_takes.take fun param => hsingle param false).ends.mono (fun _ => id) fun _ _ => And.right
  · exact kind_ends.seq fun _ => .ite (fun _ => listArrow?_ends h false) fun _ => .pure fun _ hp => nomatch hp.1

/-! ### Object literals -/

omit h in
theorem modifiers_ends {R : Nat → Prop} (default : MemberKind) : (modifiers default).Ends R never := by
  refine (isModifier_ends _).seq fun async => .option next_ends ((accept_ends _).seq fun generator => ?_)
  refine .ite (fun _ => .done) fun _ => (isModifier_ends _).seq fun _ => .ite (fun _ => ?_) fun _ => ?_
  · exact next_ends.seq fun _ => .done
  · refine (isModifier_ends _).seq fun _ => .ite (fun _ => ?_) fun _ => .done
    exact next_ends.seq fun _ => .done

theorem objectProperty_ends : (objectProperty sub).Ends (Room sub.fuel 8) always := by
  refine (accept_ends _).seq fun _ => .ite (fun _ => ?_) fun _ => ?_
  · exact (h.assignment.inside (by decide)).first fun _ => .done
  refine (modifiers_ends _).seq fun m => token_ends.seq fun t => (propertyKey_ends h).first fun r => ?_
  refine kind_ends.seq fun _ => .ite (fun _ => ?_) fun _ => (accept_ends _).seq fun _ => .ite (fun _ => ?_) fun _ => ?_
  · exact (method_ends h _ _).seq fun f => (checkAccessor_ends _ _ _).seq fun _ => .done
  · exact (h.assignment.inside (by decide)).seq fun _ => .done
  · split
    · refine .ite (fun _ => unexpectedHere_ends.seq fun _ => .done) fun _ => token_ends.seq fun t => ?_
      refine .ite (fun _ => (claim_ends _).seq fun _ => next_ends.seq fun _ => ?_) fun _ => .done
      exact (h.assignment.inside (by decide)).seq fun _ => .done
    · exact unexpectedHere_ends.seq fun _ => .done

theorem objectLiteral_takes : (objectLiteral sub).Takes (Ahead sub.fuel 8) := by
  refine (expect_takes _).take (T := never) fun _ => ?_
  refine (commaList_ends _ (objectProperty_ends h) (Room.turns (by decide))).withIn.seq fun _ => ?_
  exact (expect_ends _).seq fun _ => .done

/-! ### Patterns -/

theorem arrayPattern_takes : (arrayPattern sub).Takes (Ahead sub.fuel 8) := by
  refine (expect_takes _).take (T := never) fun _ => Ends.seq (P := never) ?_ fun r => ?_
  rotate_left
  · exact (expect_ends _).seq fun _ => .done
  refine Ends.manyAt (fun _ => rfl) (fun _ => isOpen_live) (fun r => ?_) (Room.turns (by decide)) _
  refine .acceptInside (by decide) .done (.acceptInside (by decide) ?_ ?_)
  · exact (h.target.inside (by decide)).seq fun _ => kind_ends.seq fun _ => .option (report_ends _) .done
  · exact (bindingElement_ends h).first fun _ => kind_ends.seq fun _ => .option (expect_ends _) .done

theorem patternProperty_ends : (patternProperty sub).Ends (Room sub.fuel 8) always := by
  refine token_ends.seq fun t => (propertyKey_ends h).first fun r => (accept_ends _).seq fun _ => ?_
  refine .ite (fun _ => (bindingElement_ends h).seq fun _ => .done) fun _ => .option unexpectedHere_ends ?_
  refine (accept_ends _).seq fun _ => .ite (fun _ => ?_) fun _ => .done
  exact (h.assignment.inside (by decide)).seq fun _ => .done

theorem objectPattern_takes : (objectPattern sub).Takes (Ahead sub.fuel 8) := by
  refine (expect_takes _).take (T := never) fun _ => Ends.seq (P := never) ?_ fun r => ?_
  rotate_left
  · exact (expect_ends _).seq fun _ => .done
  refine Ends.manyAt (fun _ => rfl) (fun _ => isOpen_live) (fun r => ?_) (Room.turns (by decide)) _
  refine .acceptInside (by decide) ?_ ?_
  · refine isBindingName_ends.seq fun _ => .option unexpectedHere_ends ?_
    exact identifier_ends.seq fun _ => .done
  · exact (patternProperty_ends h).first fun _ => kind_ends.seq fun _ => .option (expect_ends _) .done

theorem target_ends : (target sub).Ends (Room sub.fuel 1) always := by
  have hname {R : Nat → Prop} : Ends (do
      if ← isBindingName then return Pattern.ident (← identifier)
      else
        unexpectedHere
        next
        return .ident { name := "" }) R always := by
    refine isBindingName_ends.seq fun _ => .ite (fun _ => identifier_ends.first fun _ => .done) fun _ => ?_
    exact unexpectedHere_ends.seq fun _ => next_ends.first fun _ => .done
  refine .live (c := 8) (f := fun s => s.token.kind) (fun s hs => ?_) (fun s hs => ?_) (Room.ahead (by decide))
  · rw [hs]
    exact hname
  · refine .ahead ?_
    split
    · exact (arrayPattern_takes h).ends
    · exact (objectPattern_takes h).ends
    · exact hname

/-! ### Classes -/

omit h in
theorem decoratorPath_ends {e : Expr} (n : Nat) : (decoratorPath e n).Ends (Room n 8) never := by
  refine Ends.many (f := fun s => s.token.kind = .dot) (fun _ => rfl) (fun e s hs hdot hr => ?_)
    (Room.turns (by decide)) e
  have hstep : Takes (do next; return (Expr.member e (← propertyName) false, true)) (Room n 8) :=
    next_takes.seq (T := never) fun _ => propertyName_ends.seq fun _ => .done
  refine ⟨hstep.leads s hs hr, fun _ _ => ?_⟩
  have hpos := State.left_pos hs (of_decide_eq_true hdot ▸ by decide)
  exact Nat.lt_of_le_of_lt (hstep.left s hs hr) (Nat.sub_lt hpos Nat.one_pos)

theorem decorator_takes : (decorator sub).Takes (Ahead sub.fuel 8) := by
  refine next_takes.take (T := never) fun _ => kind_ends.seq fun _ => .ite (fun _ => ?_) fun _ => ?_
  · exact (parenthesized_takes h).inside.ends.never
  refine identifier_ends.seq fun id => (decoratorPath_ends _).seq fun e => kind_ends.seq fun _ => ?_
  exact .ite (fun _ => (arguments_takes h).inside.ends.seq fun _ => .done) fun _ => .done

theorem decorators_ends : (decorators sub).Ends (Ahead sub.fuel 8) never := by
  refine (Ends.manyAt (f := fun s => s.token.kind = .at && !s.failed) (fun _ => rfl) (fun s hs => ?_) (fun es => ?_)
    Ahead.turns []).seq fun es => .done
  · rw [Bool.and_eq_true, decide_eq_true_iff] at hs
    exact ⟨hs.1 ▸ by decide, by simpa using hs.2⟩
  · exact (decorator_takes h).ends.first fun _ => .done

theorem classMember_ends (isStatic : Bool) : (classMember sub isStatic).Ends (Room sub.fuel 8) always := by
  refine (modifiers_ends _).seq fun m => token_ends.seq fun t => (propertyKey_ends h).first fun r => ?_
  refine kind_ends.seq fun _ => .ite (fun _ => ?_) fun _ => (accept_ends _).seq fun _ => ?_
  · exact (method_ends h _ _).seq fun f => (checkAccessor_ends _ _ _).seq fun _ => .done
  extract_lets rest
  have hrest (init : Option Expr) : (rest init).Ends (Room sub.fuel 8) never := semicolon_ends.seq fun _ => .done
  refine .ite (fun _ => ?_) fun _ => Ends.done.seq hrest
  exact .seq (.map ((h.assignment.inside (by decide)).withIn.inFunction _ _)) hrest

theorem classElement_ends : (classElement sub).Ends (Room sub.fuel 8) always := by
  refine (isModifier_ends _).seq fun _ => .ite (fun _ => ?_) fun _ => classMember_ends h false
  refine next_ends.first fun _ => kind_ends.seq fun _ => .ite (fun _ => ?_) fun _ => (classMember_ends h true).never
  exact ((block_takes h).inside.ends.inFunction _ _).seq fun _ => .done

theorem classLiteral_takes (decs : List Expr) (declaration : Bool) :
    (classLiteral sub decs declaration).Takes (Ahead sub.fuel 8) := by
  refine (expect_takes _).take (T := never) fun _ => isBindingName_ends.seq fun _ => ?_
  extract_lets afterName unnamed
  have hname (name : Option Ident) : (afterName name).Ends (Room sub.fuel 8) never := by
    refine (accept_ends _).seq fun _ => ?_
    extract_lets rest
    have hrest (superclass : Option Expr) : (rest superclass).Ends (Room sub.fuel 8) never := by
      refine Ends.seq (P := never) (.inSetting _ _ ((expect_ends _).seq fun _ => Ends.seq (P := never) ?_ fun _ => ?_))
        fun _ => .done
      rotate_left
      · exact (expect_ends _).seq fun _ => .done
      refine Ends.manyAt (fun _ => rfl) (fun _ => isOpen_live) (fun body => ?_) (Room.turns (by decide)) []
      refine .acceptInside (by decide) .done (kind_ends.seq fun _ => ?_)
      extract_lets rest
      have hrest : (rest ()).Ends (Room sub.fuel 8) always := (classElement_ends h).first fun _ => .done
      refine .ite (fun _ => (report_ends _).seq fun _ => ?_) fun _ => hrest
      exact .seq (.map ((decorators_ends h).weaken Room.behind)) fun _ => hrest
    refine .ite (fun _ => ?_) fun _ => Ends.done.seq hrest
    exact .seq (.map (h.leftHand.inside (by decide))) hrest
  refine .ite (fun _ => Ends.seq (.map identifier_ends) hname) fun _ => ?_
  exact .option unexpectedHere_ends (hname none)

theorem decoratedClass_takes (declaration : Bool) : (decoratedClass sub declaration).Takes (Ahead sub.fuel 8) := by
  refine .after (decorators_ends h) fun decs => .after kind_ends fun _ => ?_
  exact .option unexpectedHere_ends (classLiteral_takes h _ _)

/-! ### Operators -/

omit h in
theorem isAsyncFunction_ends {R : Nat → Prop} : isAsyncFunction.Ends R never :=
  (isWord_ends _).seq fun _ => .ite (fun _ => peek_ends.seq fun _ => .done) fun _ => .done

omit h in
theorem importExpr_takes {R : Nat → Prop} : importExpr.Takes R := by
  refine next_takes.seq (T := never) fun _ => (accept_ends _).seq fun _ => .ite (fun _ => ?_) fun _ => ?_
  · exact token_ends.seq fun _ => .option unexpectedHere_ends (next_ends.seq fun _ => .done)
  · exact kind_ends.seq fun _ => .option unexpectedHere_ends .done

theorem primary_ends : (primary sub).Ends (Room sub.fuel 0) always := by
  have hnext {R : Nat → Prop} {e : Expr} : Ends (do next; return e) R always := next_ends.first fun _ => .done
  have hname {R : Nat → Prop} : Ends (do return Expr.ident (← identifier)) R always :=
    identifier_ends.first fun _ => .done
  have hunexpected {R : Nat → Prop} (t : Token) (e : Expr) : Ends (do unexpected t; next; return e) R always :=
    (unexpected_ends t).seq fun _ => hnext
  refine .live (c := 8) (f := fun s => s.token) (fun s hs => ?_) (fun s hs => ?_) (Room.ahead (by decide))
  · rw [hs]
    exact hunexpected _ _
  · refine .ahead ?_
    split
    · refine isAsyncFunction_ends.seq fun _ => .ite (fun _ => ?_) fun _ => .ite (fun _ => ?_) fun _ => hname
      · exact (next_takes.take fun _ => (function_takes h _ _).inside.ends.first fun _ => .done).ends
      · exact next_ends.first fun _ => kind_ends.seq fun _ => .option (reportAt_ends _ _) .done
    · exact hname
    · exact hname
    · exact hnext
    · exact next_ends.first fun _ => kind_ends.seq fun _ => .option (report_ends _) .done
    · exact hnext
    · exact hnext
    · exact hnext
    · exact hnext
    · exact templateLiteral_ends h none
    · exact regExpLiteral_takes.ends
    · exact regExpLiteral_takes.ends
    · exact (arrayLiteral_takes h).ends
    · exact (objectLiteral_takes h).ends
    · exact (parenthesized_takes h).ends
    · exact (function_takes h _ _).ends.first fun _ => .done
    · exact (classLiteral_takes h _ _).ends.first fun _ => .done
    · exact (decoratedClass_takes h _).ends.first fun _ => .done
    · exact importExpr_takes.ends
    · exact hunexpected _ _

theorem suffix_ends (left : Expr) : (suffix sub left).Ends (Room sub.fuel 0) onward := by
  refine .live (c := 8) (f := fun s => s.token.kind) (fun s hs => ?_) (fun s hs => ?_) (Room.ahead (by decide))
  · rw [hs]
    exact .stop
  split
  · exact .ahead (next_ends.first fun _ => propertyName_ends.seq fun _ => .done)
  · refine .ahead (Takes.ends (next_takes.take (T := never) fun _ => kind_ends.seq fun k => ?_))
    split
    · exact (arguments_takes h).inside.ends.seq fun _ => .done
    · exact (computedKey_takes h).inside.ends.seq fun _ => .done
    · exact (report_ends _).seq fun _ => .done
    · exact propertyName_ends.seq fun _ => .done
  · exact .ahead ((computedKey_takes h).ends.first fun _ => .done)
  · exact .ahead ((arguments_takes h).ends.first fun _ => .done)
  · exact .ahead ((templateLiteral_ends h _).first fun _ => .done)
  · exact .pure fun _ hp => nomatch hp.1

theorem leftHand_ends : (leftHand sub).Ends (Room sub.fuel 2) always := by
  have hsuffix (left : Expr) :
      (many (do return !(← failed)) (suffix sub) sub.fuel left).Ends (Room sub.fuel 2) never :=
    .manyOnward (f := fun s => !s.failed) (fun _ => rfl) (by simp)
      (fun e => (suffix_ends h e).inside (by decide)) (Room.turns (by decide)) left
  have hprimary : (primary sub).Ends (Room sub.fuel 2) always := (primary_ends h).inside (by decide)
  refine .live (c := 9) (f := fun s => s.token.kind) (fun s hs => ?_) (fun s hs => ?_) (Room.ahead (by decide))
  · rw [hs]
    exact hprimary.first hsuffix
  · refine .ite (fun _ => ?_) fun _ => ?_
    · have hnew := h.newExpr.weaken (R := fun l => Room sub.fuel 2 l ∧ Ahead sub.fuel 9 l) fun _ => And.right
      exact hnew.bind (fun e => (hsuffix e).weaken fun _ => And.left) fun _ _ _ hp => .inl hp.2
    · exact (hprimary.first hsuffix).here

theorem calleeSuffix_ends (callee : Expr) : (calleeSuffix sub callee).Ends (Room sub.fuel 0) onward := by
  refine .live (c := 8) (f := fun s => s.token.kind) (fun s hs => ?_) (fun s hs => ?_) (Room.ahead (by decide))
  · rw [hs]
    exact .stop
  split
  · exact .ahead (next_ends.first fun _ => propertyName_ends.seq fun _ => .done)
  · exact .ahead ((computedKey_takes h).ends.first fun _ => .done)
  · exact .ahead ((templateLiteral_ends h _).first fun _ => .done)
  · exact (report_ends _).seq fun _ => .pure fun _ hp => nomatch hp.1
  · exact .pure fun _ hp => nomatch hp.1

theorem newExpr_takes : (newExpr sub).Takes (Ahead sub.fuel 8) := by
  refine (expect_takes _).take (T := never) fun _ => (accept_ends _).seq fun _ => .ite (fun _ => ?_) fun _ => ?_
  · refine token_ends.seq fun _ => context_ends.seq fun _ => .option unexpectedHere_ends ?_
    exact next_ends.seq fun _ => .done
  have hrest (callee : Expr) : Ends (do
      let callee ← many (do return !(← failed)) (calleeSuffix sub) sub.fuel callee
      if (← kind) = .leftParen then return Expr.new callee (← arguments sub)
      else return .new callee []) (Room sub.fuel 8) never := by
    refine Ends.seq (P := never) (.manyOnward (f := fun s => !s.failed) (fun _ => rfl) (by simp)
      (fun e => (calleeSuffix_ends h e).inside (by decide)) (Room.turns (by decide)) callee) fun callee => ?_
    refine kind_ends.seq fun _ => .ite (fun _ => ?_) fun _ => .done
    exact (arguments_takes h).inside.ends.seq fun _ => .done
  have hprimary : (primary sub).Ends (Room sub.fuel 8) always := (primary_ends h).inside (by decide)
  refine .live (c := 9) (f := fun s => s.token.kind) (fun s hs => ?_) (fun s hs => ?_) (Room.ahead (by decide))
  · rw [hs]
    exact hprimary.seq hrest
  · refine .ite (fun _ => ?_) fun _ => (hprimary.seq hrest).here
    exact (h.newExpr.weaken fun _ => And.right).seq fun callee => (hrest callee).here

theorem updateAfter_ends : (updateAfter sub).Ends (Room sub.fuel 3) always := by
  refine token_ends.seq fun start => h.leftHand.first fun e => token_ends.seq fun t => ?_
  split
  · refine .ite (fun _ => .done) fun _ => .option (reportAt_ends _ _) ?_
    exact next_ends.seq fun _ => .done
  · exact .done

theorem unary_ends : (unary sub).Ends (Room sub.fuel 3) always := by
  have hoperand {m : Expr → Parser Expr} (hm : ∀ e, (m e).Ends (Room sub.fuel 8) never) :
      (next >>= fun _ => sub.unary >>= m).Ends (Ahead sub.fuel 8) always :=
    (next_takes.take fun _ => (h.unary.inside (by decide)).seq hm).ends
  refine .live (c := 8) (f := State.token) (fun s hs => ?_) (fun s hs => ?_) (Room.ahead (by decide))
  · rw [hs]
    refine context_ends.seq fun c => .ite (fun hc => ?_) fun _ => updateAfter_ends h
    cases hc
  · split
    · exact .ahead (hoperand fun e => kind_ends.seq fun _ => .option (report_ends _) .done)
    · exact .ahead (hoperand fun e => .option (reportAt_ends _ _) .done)
    · refine context_ends.seq fun _ => .ite (fun _ => ?_) fun _ => (updateAfter_ends h).here
      exact .ahead (hoperand fun e => .done)

theorem operation_ends (above : Nat) (left : Expr) : (operation sub above left).Ends (Room sub.fuel 0) onward := by
  refine .live (c := 8) (f := fun s => s.token.kind) (fun s hs => ?_) (fun s hs => ?_) (Room.ahead (by decide))
  · rw [hs]
    exact context_ends.seq fun _ => .stop
  refine context_ends.seq fun c => ?_
  extract_lets prec
  split
  · refine .ite (fun _ => .pure fun _ hp => nomatch hp.1) fun _ => .ahead (Takes.ends ?_)
    exact next_takes.take (T := never) fun _ => ((h.binary _).inside (by decide)).seq fun _ => .done
  · exact .pure fun _ hp => nomatch hp.1

theorem binary_ends (above : Nat) : (binary sub above).Ends (Room sub.fuel 4) always := by
  refine h.unary.first fun left => .manyOnward (f := fun s => !s.failed) (fun _ => rfl) (by simp) (fun e => ?_)
    (Room.turns (by decide)) left
  exact (operation_ends h above e).inside (by decide)

theorem conditional_ends : (conditional sub).Ends (Room sub.fuel 5) always := by
  refine (h.binary 0).first fun test => .acceptOr (T := never) (by decide) (Room.mono (by decide)) ?_ .done
  refine (h.assignment.inside (by decide)).withIn.seq fun yes => (expect_ends _).seq fun _ => ?_
  exact (h.assignment.inside (by decide)).seq fun no => .done

theorem yieldExpr_takes : (yieldExpr sub).Takes (Ahead sub.fuel 8) := by
  refine (expect_takes _).take (T := never) fun _ => token_ends.seq fun _ => .ite (fun _ => .done) fun _ => ?_
  refine (accept_ends _).seq fun _ => kind_ends.seq fun _ => .ite (fun _ => ?_) fun _ => ?_
  · exact .option unexpectedHere_ends .done
  · exact (h.assignment.inside (by decide)).seq fun _ => .done

theorem assignment_ends : (assignment sub).Ends (Room sub.fuel 5) always := by
  refine .keyword (by decide) (yieldExpr_takes h).ends ?_ (Room.ahead (by decide))
  refine (arrow?_ends h).bind (Q := fun r _ l => r = none ∧ 0 < l) (fun r => ?_) fun r e l hl => ?_
  · cases r with
    | some e => exact .pure fun _ hp => nomatch hp.1
    | none =>
      refine Ends.mono (P := always) ?_ (fun _ => id) fun _ _ => And.right
      refine token_ends.seq fun start => (conditional_ends h).first fun left => ?_
      refine .live (c := 8) (f := fun s => s.token.kind) (fun s hs => ?_) (fun s hs => ?_) (Room.ahead (by decide))
      · rw [hs]
        exact .done
      split
      · exact .pure fun _ hp => hp.1.elim
      · refine .option (reportAt_ends _ _) (.option (claim_ends _) ?_)
        refine (Takes.ends ?_).mono (fun _ => And.right) fun _ _ hp => hp.1.elim
        exact next_takes.take (T := never) fun _ => (h.assignment.inside (by decide)).seq fun _ => .done
  · cases r with
    | some e => exact .inl ⟨rfl, hl⟩
    | none => exact .inr ⟨rfl, hl⟩

end Deadwood.Parser
