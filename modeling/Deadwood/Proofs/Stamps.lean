import Deadwood.Proofs.Tidy
import Deadwood.Constant
import Deadwood.Value

/-!
# What depends on stamps

Of the stamp of an identifier, the effects and the value of an expression depend only on whether the name is
global.  So they are the same for two ways to stamp a tidied program.  Whether an expression is constant
does not depend on the statements inside of it at all.
-/

namespace Deadwood

/-- Two identifiers have the same name, and both are global or none is. -/
def Ident.Alike (a b : Ident) : Prop := a.name = b.name ∧ (a.mark = 0 ↔ b.mark = 0)

/-- Two ways to stamp identifiers agree on what is global. -/
def AlikeStamps (f g : Ident → Ident) : Prop := ∀ id, (f id).Alike (g id)

variable {f g : Ident → Ident}

/-! ### Statements that do nothing -/

mutual

theorem Stmt.tidy_isEmpty (f g : Ident → Ident) (t : Stmt) :
    (t.tidy f).settle.isEmpty = (t.tidy g).settle.isEmpty := by
  match t with
  | .block body => exact Stmt.tidyList_isEmpty f g body
  | .decl _ [] => rfl
  | .decl _ (_ :: _) => rfl
  | .empty | .debugger | .expr _ | .cond .. | .ret _ | .throw _ | .brk _ | .cont _ | .labelled .. | .while ..
  | .doWhile .. | .for .. | .forIn .. | .forOf .. | .switch .. | .tryCatch .. | .tryFinally .. | .func _
  | .cls _ | .importDecl .. | .exportDecl _ | .exportNames .. | .exportAll .. | .exportDefault _
  | .exportDefaultExpr _ => rfl

theorem Stmt.tidyList_isEmpty (f g : Ident → Ident) (ts : List Stmt) :
    (Stmt.tidyList f ts).isEmpty = (Stmt.tidyList g ts).isEmpty := by
  match ts with
  | [] => rfl
  | t :: ts =>
    rw [Stmt.tidyList, Stmt.tidyList, Stmt.tidy_isEmpty f g t]
    split
    · exact Stmt.tidyList_isEmpty f g ts
    · rfl

end

/-! ### Parts of expressions -/

theorem Expr.tidy_string? (f : Ident → Ident) (e : Expr) : (e.tidy f).string? = e.string? := by
  cases e <;> rfl

theorem Expr.tidyOpt_isSome (f : Ident → Ident) (e : Option Expr) : (Expr.tidyOpt f e).isSome = e.isSome := by
  cases e <;> rfl

theorem Expr.tidyOpt_isNone (f : Ident → Ident) (e : Option Expr) : (Expr.tidyOpt f e).isNone = e.isNone := by
  cases e <;> rfl

theorem Expr.tidyList_isEmpty (f : Ident → Ident) (es : List Expr) :
    (Expr.tidyList f es).isEmpty = es.isEmpty := by
  cases es <;> rfl

theorem Declarator.tidyList_isEmpty (f : Ident → Ident) (ds : List Declarator) :
    (Declarator.tidyList f ds).isEmpty = ds.isEmpty := by
  cases ds <;> rfl

theorem Pattern.tidyOpt_isNone (f : Ident → Ident) (p : Option Pattern) :
    (Pattern.tidyOpt f p).isNone = p.isNone := by
  cases p <;> rfl

theorem Pattern.tidy_isIdent (f : Ident → Ident) (p : Pattern) : (p.tidy f).isIdent = p.isIdent := by
  cases p <;> rfl

/-! ### Effects -/
theorem Expr.tidy_isGlobal (h : AlikeStamps f g) (name : String) (e : Expr) : (e.tidy f).isGlobal name = (e.tidy g).isGlobal name := by
  cases e with
  | ident id => simp only [Expr.tidy, Expr.isGlobal, (h id).1, (h id).2]
  | _ => rfl

/-- Alike identifiers read the same global constants. -/
theorem Ident.constants_eq {a b : Ident} (h : a.Alike b) :
    (Expr.ident a).isUndefined = (Expr.ident b).isUndefined ∧ (Expr.ident a).isNaN = (Expr.ident b).isNaN ∧
      (Expr.ident a).isInfinity = (Expr.ident b).isInfinity := by
  simp only [Expr.isUndefined, Expr.isNaN, Expr.isInfinity, Expr.isGlobal, h.1, h.2, and_self]

theorem Ident.mayThrow_eq (h : AlikeStamps f g) (id : Ident) : (f id).mayThrow = (g id).mayThrow := by
  simp only [Ident.mayThrow, (h id).1, (h id).2]

theorem Expr.tidy_isPureMethod (h : AlikeStamps f g) (e : Expr) (name : Option String) :
    (e.tidy f).isPureMethod name = (e.tidy g).isPureMethod name := by
  simp only [Expr.isPureMethod, Expr.tidy_isGlobal h, Expr.tidy_string?]

theorem Expr.tidy_isPureCallee (h : AlikeStamps f g) (e : Expr) : (e.tidy f).isPureCallee = (e.tidy g).isPureCallee := by
  cases e with
  | member o name _ => exact Expr.tidy_isPureMethod h o _
  | index o key _ =>
    simp only [Expr.tidy, Expr.isPureCallee, Expr.tidy_isPureMethod h, Expr.tidy_string?]
  | func fn =>
    cases fn with
    | mk name params rest body async generator =>
      simp only [Expr.tidy, Func.tidy, Expr.isPureCallee, Func.params, Func.rest, Func.body,
        Declarator.tidyList_isEmpty, Pattern.tidyOpt_isNone, Stmt.tidyList_isEmpty f g]
  | arrowBlock params rest body async =>
    simp only [Expr.tidy, Expr.isPureCallee, Declarator.tidyList_isEmpty, Pattern.tidyOpt_isNone,
      Stmt.tidyList_isEmpty f g]
  | ident id => exact Expr.tidy_isGlobal h "Date" (.ident id)
  | _ => rfl

theorem Property.tidy_isDynamic (h : AlikeStamps f g) (p : Property) : (p.tidy f).isDynamic = (p.tidy g).isDynamic := by
  cases p with
  | short id _ => simp only [Property.tidy, Property.isDynamic, (h id).1]
  | keyed key kind value computed =>
    cases computed with
    | false => rfl
    | true => simp only [Property.tidy, Property.isDynamic, if_true, Bool.true_or]
  | spread _ => rfl

theorem Property.tidyList_any_isDynamic (h : AlikeStamps f g) (ps : List Property) :
    (Property.tidyList f ps).any Property.isDynamic = (Property.tidyList g ps).any Property.isDynamic := by
  induction ps with
  | nil => rfl
  | cons p ps ih => rw [Property.tidyList, Property.tidyList, List.any_cons, List.any_cons, Property.tidy_isDynamic h, ih]

theorem ClassElement.tidyList_any (f g : Ident → Ident) (es : List ClassElement) :
    (ClassElement.tidyList f es).any ClassElement.isStaticAccessor =
      (ClassElement.tidyList g es).any ClassElement.isStaticAccessor := by
  induction es with
  | nil => rfl
  | cons e es ih =>
    rw [ClassElement.tidyList, ClassElement.tidyList, List.any_cons, List.any_cons, ih]
    cases e <;> rfl

theorem Expr.tidy_mayTrap (h : AlikeStamps f g) (e : Expr) : (e.tidy f).mayTrap = (e.tidy g).mayTrap := by
  cases e with
  | cls c =>
    cases c
    exact ClassElement.tidyList_any f g _
  | object ps => exact Property.tidyList_any_isDynamic h ps
  | _ => rfl

mutual

theorem Expr.tidy_mayHaveEffects (h : AlikeStamps f g) (e : Expr) : (e.tidy f).mayHaveEffects = (e.tidy g).mayHaveEffects := by
  match e with
  | .hole | .this | .null | .bool _ | .number .. | .string _ | .regExp .. | .func _ | .arrow .. | .arrowBlock ..
  | .super | .spread _ | .update .. | .assign .. | .new .. | .await _ | .yield .. => rfl
  | .ident id => exact Ident.mayThrow_eq h id
  | .cls c => exact Class.tidy_mayHaveEffects h c
  | .array es => exact Expr.tidy_anyEffects h es
  | .object ps => exact Property.tidy_anyEffects h ps
  | .template tag _ es =>
    simp only [Expr.tidy, Expr.mayHaveEffects, Expr.tidyOpt_isSome, Expr.tidy_anyEffects h es]
  | .unary op e =>
    have he := Expr.tidy_mayHaveEffects h e
    cases op with
    | delete => simp only [Expr.tidy, Expr.mayHaveEffects]
    | typeof =>
      cases e with
      | ident id => simp only [Expr.tidy, Expr.mayHaveEffects]
      | _ => simp only [Expr.tidy, Expr.mayHaveEffects] at he ⊢ <;> exact he
    | _ => simp only [Expr.tidy, Expr.mayHaveEffects, he]
  | .binary op x y =>
    simp only [Expr.tidy, Expr.mayHaveEffects, Expr.tidy_mayHaveEffects h x, Expr.tidy_mayHaveEffects h y]
  | .member o _ _ => simp only [Expr.tidy, Expr.mayHaveEffects, Expr.tidy_mayTrap h, Expr.tidy_mayHaveEffects h o]
  | .index o key _ =>
    simp only [Expr.tidy, Expr.mayHaveEffects, Expr.tidy_mayTrap h, Expr.tidy_mayHaveEffects h o,
      Expr.tidy_mayHaveEffects h key]
  | .call callee args _ =>
    simp only [Expr.tidy, Expr.mayHaveEffects, Expr.tidy_isPureCallee h, Expr.tidy_anyEffects h args]
  | .seq es => exact Expr.tidy_anyEffects h es
  | .cond test yes no =>
    simp only [Expr.tidy, Expr.mayHaveEffects, Expr.tidy_mayHaveEffects h test, Expr.tidy_mayHaveEffects h yes,
      Expr.tidy_mayHaveEffects h no]

theorem Expr.tidy_anyEffects (h : AlikeStamps f g) (es : List Expr) :
    Expr.anyEffects (Expr.tidyList f es) = Expr.anyEffects (Expr.tidyList g es) := by
  match es with
  | [] => rfl
  | e :: es => simp only [Expr.tidyList, Expr.anyEffects, Expr.tidy_mayHaveEffects h e, Expr.tidy_anyEffects h es]

theorem Expr.tidy_optEffects (h : AlikeStamps f g) (e : Option Expr) :
    Expr.optEffects (Expr.tidyOpt f e) = Expr.optEffects (Expr.tidyOpt g e) := by
  match e with
  | none => rfl
  | some e => exact Expr.tidy_mayHaveEffects h e

theorem Property.tidy_anyEffects (h : AlikeStamps f g) (ps : List Property) :
    Property.anyEffects (Property.tidyList f ps) = Property.anyEffects (Property.tidyList g ps) := by
  match ps with
  | [] => rfl
  | p :: ps =>
    simp only [Property.tidyList, Property.anyEffects, Property.tidy_mayHaveEffects h p, Property.tidy_anyEffects h ps]

theorem Property.tidy_mayHaveEffects (h : AlikeStamps f g) (p : Property) : (p.tidy f).mayHaveEffects = (p.tidy g).mayHaveEffects := by
  match p with
  | .short id _ => exact Ident.mayThrow_eq h id
  | .keyed key _ value true =>
    simp only [Property.tidy, Property.mayHaveEffects, if_true, Expr.tidy_mayHaveEffects h key,
      Expr.tidy_mayHaveEffects h value]
  | .keyed _ _ value false =>
    simp only [Property.tidy, Property.mayHaveEffects, Bool.false_and, Expr.tidy_mayHaveEffects h value]
  | .spread _ => rfl

theorem Class.tidy_mayHaveEffects (h : AlikeStamps f g) (c : Class) : (c.tidy f).mayHaveEffects = (c.tidy g).mayHaveEffects := by
  match c with
  | .mk _ superclass body decorators =>
    simp only [Class.tidy, Class.mayHaveEffects, Expr.tidyList_isEmpty, Expr.tidy_optEffects h superclass,
      ClassElement.tidy_anyEffects h body]

theorem ClassElement.tidy_anyEffects (h : AlikeStamps f g) (es : List ClassElement) :
    ClassElement.anyEffects (ClassElement.tidyList f es) = ClassElement.anyEffects (ClassElement.tidyList g es) := by
  match es with
  | [] => rfl
  | e :: es =>
    simp only [ClassElement.tidyList, ClassElement.anyEffects, ClassElement.tidy_mayHaveEffects h e,
      ClassElement.tidy_anyEffects h es]

theorem ClassElement.tidy_mayHaveEffects (h : AlikeStamps f g) (e : ClassElement) :
    (e.tidy f).mayHaveEffects = (e.tidy g).mayHaveEffects := by
  match e with
  | .method key _ _ true _ =>
    simp only [ClassElement.tidy, ClassElement.mayHaveEffects, if_true, Expr.tidy_mayHaveEffects h key]
  | .method _ _ _ false _ => rfl
  | .field key init true _ =>
    simp only [ClassElement.tidy, ClassElement.mayHaveEffects, if_true, Expr.tidy_mayHaveEffects h key,
      Expr.tidy_optEffects h init]
  | .field _ init false _ =>
    simp only [ClassElement.tidy, ClassElement.mayHaveEffects, Bool.false_and, Expr.tidy_optEffects h init]
  | .block body => exact Stmt.tidy_anyEffects h body

theorem Stmt.tidy_mayHaveEffects (h : AlikeStamps f g) (t : Stmt) :
    (t.tidy f).settle.mayHaveEffects = (t.tidy g).settle.mayHaveEffects := by
  match t with
  | .block body => exact Stmt.tidy_anyEffects h body
  | .labelled _ body => exact Stmt.tidy_mayHaveEffects h body
  | .cond test yes no =>
    have ht := Expr.tidy_mayHaveEffects h test
    have hy := Stmt.tidy_mayHaveEffects h yes
    have hn := Stmt.tidy_optEffects h no
    show (_ || _ || _) = (_ || _ || _)
    rw [ht, hy, hn]
  | .switch subject cases =>
    simp only [Stmt.tidy, Stmt.settle, Stmt.mayHaveEffects, Expr.tidy_mayHaveEffects h subject,
      Case.tidy_anyEffects h cases]
  | .tryCatch body _ handler finalizer =>
    simp only [Stmt.tidy, Stmt.settle, Stmt.mayHaveEffects, Stmt.tidy_anyEffects h body,
      Stmt.tidy_anyEffects h handler, Stmt.tidy_optAnyEffects h finalizer]
  | .tryFinally body finalizer =>
    simp only [Stmt.tidy, Stmt.settle, Stmt.mayHaveEffects, Stmt.tidy_anyEffects h body,
      Stmt.tidy_anyEffects h finalizer]
  | .cls c => exact Class.tidy_mayHaveEffects h c
  | .decl _ [] => rfl
  | .decl kind (d :: ds) =>
    have hds := Declarator.tidy_anyEffects h (d :: ds)
    exact congrArg (decide (kind = .var) || ·) hds
  | .expr e => exact Expr.tidy_mayHaveEffects h e
  | .empty | .debugger | .ret _ | .throw _ | .brk _ | .cont _ | .while .. | .doWhile .. | .for .. | .forIn ..
  | .forOf .. | .func _ | .importDecl .. | .exportDecl _ | .exportNames .. | .exportAll .. | .exportDefault _
  | .exportDefaultExpr _ => rfl

theorem Stmt.tidy_anyEffects (h : AlikeStamps f g) (ts : List Stmt) :
    Stmt.anyEffects (Stmt.tidyList f ts) = Stmt.anyEffects (Stmt.tidyList g ts) := by
  match ts with
  | [] => rfl
  | t :: ts =>
    rw [Stmt.tidyList, Stmt.tidyList, Stmt.tidy_isEmpty f g t]
    split
    · exact Stmt.tidy_anyEffects h ts
    · simp only [Stmt.anyEffects, Stmt.tidy_mayHaveEffects h t, Stmt.tidy_anyEffects h ts]

theorem Stmt.tidy_optEffects (h : AlikeStamps f g) (t : Option Stmt) :
    Stmt.optEffects (Stmt.tidyOpt f t) = Stmt.optEffects (Stmt.tidyOpt g t) := by
  match t with
  | none => rfl
  | some t => exact Stmt.tidy_mayHaveEffects h t

theorem Stmt.tidy_optAnyEffects (h : AlikeStamps f g) (ts : Option (List Stmt)) :
    Stmt.optAnyEffects (Stmt.tidyBlock f ts) = Stmt.optAnyEffects (Stmt.tidyBlock g ts) := by
  match ts with
  | none => rfl
  | some ts => exact Stmt.tidy_anyEffects h ts

theorem Case.tidy_anyEffects (h : AlikeStamps f g) (cs : List Case) :
    Case.anyEffects (Case.tidyList f cs) = Case.anyEffects (Case.tidyList g cs) := by
  match cs with
  | [] => rfl
  | .mk test body :: cs =>
    simp only [Case.tidyList, Case.tidy, Case.anyEffects, Expr.tidy_optEffects h test, Stmt.tidy_anyEffects h body,
      Case.tidy_anyEffects h cs]

theorem Declarator.tidy_anyEffects (h : AlikeStamps f g) (ds : List Declarator) :
    Declarator.anyEffects (Declarator.tidyList f ds) = Declarator.anyEffects (Declarator.tidyList g ds) := by
  match ds with
  | [] => rfl
  | .mk _ target init :: ds =>
    simp only [Declarator.tidyList, Declarator.tidy, Declarator.anyEffects, Pattern.tidy_isIdent,
      Expr.tidy_optEffects h init, Declarator.tidy_anyEffects h ds]

end


/-! ### Values -/

theorem Expr.tidy_builtinText? (h : AlikeStamps f g) (e : Expr) (name : Option String) :
    (e.tidy f).builtinText? name = (e.tidy g).builtinText? name := by
  cases e with
  | ident id =>
    have hb (n : String) : ((Expr.ident id).tidy f).hasBuiltin n = ((Expr.ident id).tidy g).hasBuiltin n := by
      simp only [Expr.tidy, Expr.hasBuiltin, (h id).1, (h id).2]
    simp only [Expr.builtinText?]
    congr
    funext n
    rw [hb]
  | _ => rfl

theorem Expr.tidy_joinsEmpty (h : AlikeStamps f g) (e : Expr) : (e.tidy f).joinsEmpty = (e.tidy g).joinsEmpty := by
  cases e with
  | unary op e =>
    cases op with
    | void => exact congrArg not (Expr.tidy_mayHaveEffects h e)
    | _ => rfl
  | ident id => exact Expr.tidy_isGlobal h "undefined" (.ident id)
  | _ => rfl

theorem Expr.tidy_objectTypeName? (f : Ident → Ident) (e : Expr) :
    (e.tidy f).objectTypeName? = e.objectTypeName? := by
  cases e <;> rfl

theorem Expr.tidy_textLength? (f : Ident → Ident) (e : Expr) (name : Option String) :
    (e.tidy f).textLength? name = e.textLength? name := by
  simp only [Expr.textLength?, Expr.tidy_string?]

mutual

theorem Expr.tidy_castToBool (h : AlikeStamps f g) (e : Expr) : (e.tidy f).castToBool = (e.tidy g).castToBool := by
  have he := Expr.tidy_mayHaveEffects h e
  match e with
  | .null | .bool _ | .number .. | .string _ | .regExp .. => simp only [Expr.tidy, Expr.castToBool]
  | .ident id =>
    obtain ⟨hu, hn, hi⟩ := Ident.constants_eq (h id)
    simp only [Expr.tidy] at he
    simp only [Expr.tidy, Expr.castToBool, hu, hn, hi, he]
  | .assign op x y =>
    have hy := Expr.tidy_castToBool h y
    cases op with
    | assign => simp only [Expr.tidy, Expr.castToBool, hy]
    | _ => simp only [Expr.tidy, Expr.castToBool, Expr.mayHaveEffects]
  | .unary op x =>
    have hx := Expr.tidy_mayHaveEffects h x
    have hb := Expr.tidy_castToBool h x
    have hn := Expr.tidy_castToNumber h x
    simp only [Expr.tidy] at he
    cases op with
    | minus => simp only [Expr.tidy, Expr.castToBool, hn, hx]
    | not => simp only [Expr.tidy, Expr.castToBool, hb]
    | void => simp only [Expr.tidy, Expr.castToBool, hx]
    | _ => simp only [Expr.tidy, Expr.castToBool, he]
  | .seq es =>
    have hes := Expr.tidy_anyEffects h es
    have hlast := Expr.tidy_castLastToBool h es
    simp only [Expr.tidy, Expr.castToBool, hes, hlast]
  | .binary op x y =>
    have hx := Expr.tidy_castToBool h x
    have hy := Expr.tidy_castToBool h y
    have hx' := Expr.tidy_castToNumber h x
    have hy' := Expr.tidy_castToNumber h y
    have hex := Expr.tidy_mayHaveEffects h x
    have hey := Expr.tidy_mayHaveEffects h y
    simp only [Expr.tidy] at he
    cases op with
    | subtract => simp only [Expr.tidy, Expr.castToBool, hx', hy']
    | divide => simp only [Expr.tidy, Expr.castToBool, hx', hy', he]
    | logicalOr => simp only [Expr.tidy, Expr.castToBool, hx, hy, he]
    | logicalAnd => simp only [Expr.tidy, Expr.castToBool, hx, hy, he]
    | add => simp only [Expr.tidy, Expr.castToBool, Expr.tidy_string?, hex, hey, he]
    | _ => simp only [Expr.tidy, Expr.castToBool, he]
  | .template none chunks es =>
    have hes := Expr.tidy_weaveText? h chunks es
    have hef := Expr.tidy_anyEffects h es
    simp only [Expr.tidy, Expr.tidyOpt, Expr.castToBool, hes, hef]
  | .func _ | .arrow .. | .arrowBlock .. | .cls _ | .new .. | .array _ | .object _ =>
    simp only [Expr.tidy] at he
    simp only [Expr.tidy, Expr.castToBool, he]
  | .template (some _) .. | .hole | .this | .super | .spread _ | .update .. | .cond .. | .call .. | .member ..
  | .index .. | .await _ | .yield .. =>
    simp only [Expr.tidy, Expr.tidyOpt] at he
    simp only [Expr.tidy, Expr.tidyOpt, Expr.castToBool, he]

theorem Expr.tidy_castLastToBool (h : AlikeStamps f g) (es : List Expr) :
    Expr.castLastToBool (Expr.tidyList f es) = Expr.castLastToBool (Expr.tidyList g es) := by
  match es with
  | [] => rfl
  | [e] =>
    have he := Expr.tidy_castToBool h e
    simp only [Expr.tidyList, Expr.castLastToBool, he]
  | _ :: e :: es =>
    have hes := Expr.tidy_castLastToBool h (e :: es)
    simpa only [Expr.tidyList, Expr.castLastToBool] using hes

theorem Expr.tidy_castToNumber (h : AlikeStamps f g) (e : Expr) :
    (e.tidy f).castToNumber = (e.tidy g).castToNumber := by
  match e with
  | .ident id =>
    obtain ⟨hu, hn, hi⟩ := Ident.constants_eq (h id)
    simp only [Expr.tidy, Expr.castToNumber, hu, hn, hi]
  | .array es =>
    have hes := Expr.tidy_joinText? h es
    simp only [Expr.tidy, Expr.castToNumber, hes]
  | .unary op x =>
    have hx := Expr.tidy_mayHaveEffects h x
    have hb := Expr.tidy_castToBool h x
    have hn := Expr.tidy_castToNumber h x
    cases op with
    | minus => simp only [Expr.tidy, Expr.castToNumber, hn]
    | not => simp only [Expr.tidy, Expr.castToNumber, hb]
    | void => simp only [Expr.tidy, Expr.castToNumber, hx]
    | _ => simp only [Expr.tidy, Expr.castToNumber]
  | .template none chunks es =>
    have hes := Expr.tidy_weaveText? h chunks es
    simp only [Expr.tidy, Expr.tidyOpt, Expr.castToNumber, hes]
  | .seq es =>
    have hlast := Expr.tidy_castLastToNumber h es
    simp only [Expr.tidy, Expr.castToNumber, hlast]
  | .null | .bool _ | .number .. | .string _ | .regExp .. | .template (some _) .. | .hole | .this | .super | .spread _
  | .update .. | .cond .. | .call .. | .member .. | .index .. | .await _ | .yield .. | .func _ | .arrow ..
  | .arrowBlock .. | .cls _ | .new .. | .object _ | .binary .. | .assign .. =>
    simp only [Expr.tidy, Expr.tidyOpt, Expr.castToNumber]

theorem Expr.tidy_castLastToNumber (h : AlikeStamps f g) (es : List Expr) :
    Expr.castLastToNumber (Expr.tidyList f es) = Expr.castLastToNumber (Expr.tidyList g es) := by
  match es with
  | [] => rfl
  | [e] =>
    have he := Expr.tidy_castToNumber h e
    simp only [Expr.tidyList, Expr.castLastToNumber, he]
  | _ :: e :: es =>
    have hes := Expr.tidy_castLastToNumber h (e :: es)
    simpa only [Expr.tidyList, Expr.castLastToNumber] using hes

theorem Expr.tidy_text? (h : AlikeStamps f g) (e : Expr) : (e.tidy f).text? = (e.tidy g).text? := by
  match e with
  | .template none chunks es =>
    have hes := Expr.tidy_weaveText? h chunks es
    simp only [Expr.tidy, Expr.tidyOpt, Expr.text?, hes]
  | .ident id => simp only [Expr.tidy, Expr.text?, (h id).1, (h id).2]
  | .unary op x =>
    have hx := Expr.tidy_mayHaveEffects h x
    have hb := Expr.tidy_castToBool h x
    cases op with
    | not => simp only [Expr.tidy, Expr.text?, hb]
    | void => simp only [Expr.tidy, Expr.text?, hx]
    | _ => simp only [Expr.tidy, Expr.text?]
  | .array es =>
    have hes := Expr.tidy_joinText? h es
    simp only [Expr.tidy, Expr.text?, hes]
  | .member o name _ => simp only [Expr.tidy, Expr.text?, Expr.tidy_builtinText? h]
  | .index o key _ => simp only [Expr.tidy, Expr.text?, Expr.tidy_builtinText? h, Expr.tidy_string?]
  | .null | .bool _ | .number .. | .string _ | .regExp .. | .template (some _) .. | .hole | .this | .super | .spread _
  | .update .. | .cond .. | .call .. | .await _ | .yield .. | .func _ | .arrow .. | .arrowBlock .. | .cls _
  | .new .. | .object _ | .binary .. | .assign .. | .seq _ => simp only [Expr.tidy, Expr.tidyOpt, Expr.text?]

theorem Expr.tidy_weaveText? (h : AlikeStamps f g) (chunks : List TemplateChunk) (es : List Expr) :
    Expr.weaveText? chunks (Expr.tidyList f es) = Expr.weaveText? chunks (Expr.tidyList g es) := by
  match chunks, es with
  | _, [] => rfl
  | [], _ :: _ => rfl
  | c :: cs, e :: es =>
    have he := Expr.tidy_text? h e
    have hes := Expr.tidy_weaveText? h cs es
    simp only [Expr.tidyList, Expr.weaveText?, he, hes]

theorem Expr.tidy_joinText? (h : AlikeStamps f g) (es : List Expr) :
    Expr.joinText? (Expr.tidyList f es) = Expr.joinText? (Expr.tidyList g es) := by
  match es with
  | [] => rfl
  | [e] =>
    have he := Expr.tidy_text? h e
    simp only [Expr.tidyList, Expr.joinText?, Expr.tidy_joinsEmpty h, he]
  | e :: e' :: es =>
    have he := Expr.tidy_text? h e
    have hes := Expr.tidy_joinText? h (e' :: es)
    simp only [Expr.tidyList] at hes
    simp only [Expr.tidyList, Expr.joinText?, Expr.tidy_joinsEmpty h, he, hes]

end

mutual

theorem Expr.tidy_value? (h : AlikeStamps f g) (e : Expr) : (e.tidy f).value? = (e.tidy g).value? := by
  match e with
  | .ident id =>
    obtain ⟨hu, hn, hi⟩ := Ident.constants_eq (h id)
    simp only [Expr.tidy, Expr.value?, hu, hn, hi]
  | .template none chunks es => exact congrArg (Option.map Value.string) (Expr.tidy_weaveValues? h chunks es)
  | .seq es => exact Expr.tidy_lastValue? h es
  | .cond test yes no =>
    have ht := Expr.tidy_value? h test
    have hy := Expr.tidy_value? h yes
    have hn := Expr.tidy_value? h no
    simp only [Expr.tidy, Expr.value?, ht, hy, hn]
  | .member o name _ => simp only [Expr.tidy, Expr.value?, Expr.tidy_textLength?]
  | .index o key _ => simp only [Expr.tidy, Expr.value?, Expr.tidy_textLength?, Expr.tidy_string?]
  | .unary op x =>
    have hx := Expr.tidy_mayHaveEffects h x
    have hv := Expr.tidy_value? h x
    simp only [Expr.tidy, Expr.value?, Expr.tidy_objectTypeName?, hx, hv]
  | .binary op x y =>
    have hx := Expr.tidy_value? h x
    have hy := Expr.tidy_value? h y
    simp only [Expr.tidy, Expr.value?, hx, hy]
  | .null | .bool _ | .number .. | .string _ | .regExp .. | .template (some _) .. | .hole | .this | .super | .spread _
  | .update .. | .call .. | .await _ | .yield .. | .func _ | .arrow .. | .arrowBlock .. | .cls _ | .new ..
  | .object _ | .array _ | .assign .. => simp only [Expr.tidy, Expr.tidyOpt, Expr.value?]

theorem Expr.tidy_weaveValues? (h : AlikeStamps f g) (chunks : List TemplateChunk) (es : List Expr) :
    Expr.weaveValues? chunks (Expr.tidyList f es) = Expr.weaveValues? chunks (Expr.tidyList g es) := by
  match chunks, es with
  | _, [] => rfl
  | [], _ :: _ => rfl
  | c :: cs, e :: es =>
    have he := Expr.tidy_value? h e
    have hes := Expr.tidy_weaveValues? h cs es
    simp only [Expr.tidyList, Expr.weaveValues?, he, hes]

theorem Expr.tidy_lastValue? (h : AlikeStamps f g) (es : List Expr) :
    Expr.lastValue? (Expr.tidyList f es) = Expr.lastValue? (Expr.tidyList g es) := by
  match es with
  | [] => rfl
  | [e] => exact Expr.tidy_value? h e
  | e :: e' :: es =>
    have he := Expr.tidy_mayHaveEffects h e
    have hes := Expr.tidy_lastValue? h (e' :: es)
    simp only [Expr.tidyList] at hes
    simp only [Expr.tidyList, Expr.lastValue?, he, hes]

end

theorem Expr.tidy_truthy? (h : AlikeStamps f g) (e : Expr) : (e.tidy f).truthy? = (e.tidy g).truthy? := by
  simp only [Expr.truthy?, Expr.truth?, Expr.tidy_value? h, Expr.tidy_castToBool h]

/-! ### Constants -/

/-- What is known of the names of a tidied expression is what is known of its names. -/
structure Facts.Follow (facts facts' : Facts) (f : Ident → Ident) : Prop where
  name : ∀ id, (f id).name = id.name
  accepts : ∀ primitive id, facts'.accepts primitive (f id) = facts.accepts primitive id

theorem Facts.follow_self (facts : Facts) : facts.Follow facts id := ⟨fun _ => rfl, fun _ _ => rfl⟩

theorem Facts.Follow.of_names {facts facts' : Facts} (h : AlikeStamps f id)
    (hconstant : ∀ id, facts'.isConstant (f id) = facts.isConstant id)
    (hprimitive : ∀ id, facts'.isPrimitive (f id) = facts.isPrimitive id) : facts.Follow facts' f where
  name id := (h id).1
  accepts primitive id := by
    obtain ⟨hu, hn, hi⟩ := Ident.constants_eq (h id)
    simp only [Facts.accepts, Expr.isGlobalConstant, hu, hn, hi, hconstant, hprimitive, id_eq]

theorem Facts.Follow.keyName? {facts facts' : Facts} (h : facts.Follow facts' f) (e : Expr) :
    (e.tidy f).keyName? = e.keyName? := by
  cases e with
  | ident id => simp only [Expr.tidy, Expr.keyName?, h.name]
  | _ => rfl

mutual

theorem Expr.tidy_isConstantFor {facts facts' : Facts} (h : facts.Follow facts' f) (primitive : Bool) (e : Expr) :
    (e.tidy f).isConstantFor facts' primitive = e.isConstantFor facts primitive := by
  match e with
  | .ident id => exact h.accepts primitive id
  | .template tag _ es =>
    have hes := Expr.tidy_allConstant h true es
    simp only [Expr.tidy, Expr.isConstantFor, Expr.tidyOpt_isNone, hes]
  | .unary op x =>
    have hx := Expr.tidy_isConstantFor h (!op.keepsObjects) x
    simp only [Expr.tidy, Expr.isConstantFor, hx]
  | .binary op x y =>
    have hx := fun primitive => Expr.tidy_isConstantFor h primitive x
    have hy := fun primitive => Expr.tidy_isConstantFor h primitive y
    simp only [Expr.tidy, Expr.isConstantFor, hx, hy]
  | .cond test yes no =>
    have ht := Expr.tidy_isConstantFor h false test
    have hy := Expr.tidy_isConstantFor h primitive yes
    have hn := Expr.tidy_isConstantFor h primitive no
    simp only [Expr.tidy, Expr.isConstantFor, ht, hy, hn]
  | .seq es =>
    have hes := Expr.tidy_isConstantSeq h primitive es
    simp only [Expr.tidy, Expr.isConstantFor, hes]
  | .array es =>
    have hes := Expr.tidy_allConstant h false es
    simp only [Expr.tidy, Expr.isConstantFor, hes]
  | .object ps =>
    have hps := Property.tidy_allConstant h ps
    simp only [Expr.tidy, Expr.isConstantFor, hps]
  | .cls c =>
    have hc := Class.tidy_isConstantFor h c
    simp only [Expr.tidy, Expr.isConstantFor, hc]
  | .hole | .null | .bool _ | .number .. | .string _ | .regExp .. | .func _ | .arrow .. | .arrowBlock .. | .this
  | .super | .spread _ | .update .. | .call .. | .await _ | .yield .. | .new .. | .assign .. | .member ..
  | .index .. => simp only [Expr.tidy, Expr.isConstantFor]

theorem Expr.tidy_allConstant {facts facts' : Facts} (h : facts.Follow facts' f) (primitive : Bool)
    (es : List Expr) : Expr.allConstant facts' primitive (Expr.tidyList f es) = Expr.allConstant facts primitive es := by
  match es with
  | [] => rfl
  | e :: es =>
    have he := Expr.tidy_isConstantFor h primitive e
    have hes := Expr.tidy_allConstant h primitive es
    simp only [Expr.tidyList, Expr.allConstant, he, hes]

theorem Expr.tidy_isConstantSeq {facts facts' : Facts} (h : facts.Follow facts' f) (primitive : Bool)
    (es : List Expr) :
    Expr.isConstantSeq facts' primitive (Expr.tidyList f es) = Expr.isConstantSeq facts primitive es := by
  match es with
  | [] => rfl
  | [e] =>
    have he := Expr.tidy_isConstantFor h primitive e
    simp only [Expr.tidyList, Expr.isConstantSeq, he]
  | e :: e' :: es =>
    have he := Expr.tidy_isConstantFor h false e
    have hes := Expr.tidy_isConstantSeq h primitive (e' :: es)
    simp only [Expr.tidyList] at hes
    simp only [Expr.tidyList, Expr.isConstantSeq, he, hes]

theorem Expr.tidy_isConstantOpt {facts facts' : Facts} (h : facts.Follow facts' f) (e : Option Expr) :
    Expr.isConstantOpt facts' (Expr.tidyOpt f e) = Expr.isConstantOpt facts e := by
  match e with
  | none => rfl
  | some e => exact Expr.tidy_isConstantFor h false e

theorem Property.tidy_allConstant {facts facts' : Facts} (h : facts.Follow facts' f) (ps : List Property) :
    Property.allConstant facts' (Property.tidyList f ps) = Property.allConstant facts ps := by
  match ps with
  | [] => rfl
  | p :: ps =>
    have hp := Property.tidy_isConstantFor h p
    have hps := Property.tidy_allConstant h ps
    simp only [Property.tidyList, Property.allConstant, hp, hps]

theorem Property.tidy_isConstantFor {facts facts' : Facts} (h : facts.Follow facts' f) (p : Property) :
    (p.tidy f).isConstantFor facts' = p.isConstantFor facts := by
  match p with
  | .short id init => simp only [Property.tidy, Property.isConstantFor, Expr.tidyOpt_isNone, h.accepts]
  | .keyed key _ value computed =>
    have hk := Expr.tidy_isConstantFor h true key
    have hv := Expr.tidy_isConstantFor h false value
    cases computed with
    | false => simp only [Property.tidy, Property.isConstantFor, Bool.not_false, Bool.true_or, if_false, hv,
        Bool.false_eq_true]
    | true => simp only [Property.tidy, Property.isConstantFor, if_true, h.keyName?, hk, hv]
  | .spread _ => rfl

theorem Class.tidy_isConstantFor {facts facts' : Facts} (h : facts.Follow facts' f) (c : Class) :
    (c.tidy f).isConstantFor facts' = c.isConstantFor facts := by
  match c with
  | .mk _ superclass body decorators =>
    have hs := Expr.tidy_isConstantOpt h superclass
    have hb := ClassElement.tidy_allConstant h body
    simp only [Class.tidy, Class.isConstantFor, Expr.tidyList_isEmpty, hs, hb]

theorem ClassElement.tidy_allConstant {facts facts' : Facts} (h : facts.Follow facts' f) (es : List ClassElement) :
    ClassElement.allConstant facts' (ClassElement.tidyList f es) = ClassElement.allConstant facts es := by
  match es with
  | [] => rfl
  | e :: es =>
    have he := ClassElement.tidy_isConstantFor h e
    have hes := ClassElement.tidy_allConstant h es
    simp only [ClassElement.tidyList, ClassElement.allConstant, he, hes]

theorem ClassElement.tidy_isConstantFor {facts facts' : Facts} (h : facts.Follow facts' f) (e : ClassElement) :
    (e.tidy f).isConstantFor facts' = e.isConstantFor facts := by
  match e with
  | .method key _ _ computed _ =>
    have hk := Expr.tidy_isConstantFor h true key
    cases computed with
    | false => simp only [ClassElement.tidy, ClassElement.isConstantFor, Bool.not_false, Bool.true_or]
    | true => simp only [ClassElement.tidy, ClassElement.isConstantFor, if_true, hk]
  | .field key init computed _ =>
    have hk := Expr.tidy_isConstantFor h true key
    have hi := Expr.tidy_isConstantOpt h init
    cases computed with
    | false => simp only [ClassElement.tidy, ClassElement.isConstantFor, Bool.not_false, Bool.true_or, hi]
    | true => simp only [ClassElement.tidy, ClassElement.isConstantFor, if_true, hk, hi]
  | .block _ => rfl

end

end Deadwood
