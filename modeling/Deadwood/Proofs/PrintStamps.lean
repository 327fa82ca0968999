import Deadwood.Printer
import Deadwood.Proofs.Restamp
import Mathlib.Logic.Basic

/-!
# Stamps are not printed

The text of a program is the text of the program without its stamps.
-/

namespace Deadwood

open ScopeWalk Print

theorem unstamp_inScope {α : Type} (kind : ScopeKind) (opener : Opener) (act : Id α) :
    unstamp.inScope kind opener act = act := rfl

/-! ### What the printer looks at -/

section

variable (cx : Context)

@[simp] theorem Expr.unstamp_level (e : Expr) : (e.walkScopes unstamp cx).run.level = e.level := by
  cases e with
  | template tag chunks es => cases tag <;> rfl
  | _ => rfl

@[simp] theorem Expr.unstamp_isBareInteger (e : Expr) :
    (e.walkScopes unstamp cx).run.isBareInteger = e.isBareInteger := by
  cases e <;> rfl

@[simp] theorem Expr.unstamp_isHole (e : Expr) : (e.walkScopes unstamp cx).run.isHole = e.isHole := by
  cases e <;> rfl

@[simp] theorem Expr.unstamp_keyName? (e : Expr) : (e.walkScopes unstamp cx).run.keyName? = e.keyName? := by
  cases e <;> rfl

@[simp] theorem UnaryOp.unstamp_fuses (op : UnaryOp) (e : Expr) :
    op.fuses (e.walkScopes unstamp cx).run = op.fuses e := by
  cases e <;> rfl

@[simp] theorem BinaryOp.unstamp_operandLevel (op : BinaryOp) (e : Expr) (level : Nat) :
    op.operandLevel (e.walkScopes unstamp cx).run level = op.operandLevel e level := by
  cases e <;> rfl

end

@[simp] theorem Expr.unstamp_opensBrace (cx : Context) (e : Expr) :
    (e.walkScopes unstamp cx).run.opensBrace = e.opensBrace := by
  match e with
  | .binary _ l _ => exact Expr.unstamp_opensBrace cx l
  | .assign _ l _ => exact Expr.unstamp_opensBrace cx.write l
  | .cond test _ _ => exact Expr.unstamp_opensBrace cx test
  | .call callee _ _ => exact Expr.unstamp_opensBrace cx.read callee
  | .member o _ _ | .index o _ _ => exact Expr.unstamp_opensBrace cx.read o
  | .seq (e :: _) => exact Expr.unstamp_opensBrace cx e
  | .update _ e post => exact congrArg (post && ·) (Expr.unstamp_opensBrace cx.write e)
  | .template (some tag) _ _ => exact Expr.unstamp_opensBrace cx tag
  | .seq [] | .template none _ _ | .hole | .this | .super | .null | .bool _ | .number .. | .string _ | .regExp ..
  | .ident _ | .array _ | .object _ | .spread _ | .func _ | .arrow .. | .arrowBlock .. | .cls _ | .unary ..
  | .new .. | .await _ | .yield .. => rfl

@[simp] theorem Expr.unstamp_containsCall (cx : Context) (e : Expr) :
    (e.walkScopes unstamp cx).run.containsCall = e.containsCall := by
  match e with
  | .member o _ _ | .index o _ _ => exact Expr.unstamp_containsCall cx.read o
  | .template (some tag) _ _ => exact Expr.unstamp_containsCall cx tag
  | .template none _ _ | .hole | .this | .super | .null | .bool _ | .number .. | .string _ | .regExp .. | .ident _
  | .array _ | .object _ | .spread _ | .func _ | .arrow .. | .arrowBlock .. | .cls _ | .unary .. | .update ..
  | .binary .. | .assign .. | .cond .. | .seq _ | .call .. | .new .. | .await _ | .yield .. => rfl

mutual

theorem Expr.unstamp_containsIn (cx : Context) (e : Expr) :
    (e.walkScopes unstamp cx).run.containsIn = e.containsIn := by
  match e with
  | .binary op l r =>
    exact congrArg₂ (· || ·) (congrArg (decide (op = .isIn) || ·) (Expr.unstamp_containsIn cx l))
      (Expr.unstamp_containsIn cx r)
  | .assign _ l r =>
    exact congrArg₂ (· || ·) (Expr.unstamp_containsIn cx.write l) (Expr.unstamp_containsIn cx.read r)
  | .cond test yes no =>
    exact congrArg₂ (· || ·) (congrArg₂ (· || ·) (Expr.unstamp_containsIn cx test) (Expr.unstamp_containsIn cx yes))
      (Expr.unstamp_containsIn cx no)
  | .seq es => exact Expr.unstamp_anyContainsIn cx es
  | .unary _ e | .await e | .yield (some e) _ => exact Expr.unstamp_containsIn cx e
  | .arrow _ _ body _ => exact Expr.unstamp_containsIn cx.read body
  | .member o _ _ | .index o _ _ => exact Expr.unstamp_containsIn cx.read o
  | .call callee _ _ => exact Expr.unstamp_containsIn cx.read callee
  | .yield none _ | .template .. | .hole | .this | .super | .null | .bool _ | .number .. | .string _ | .regExp ..
  | .ident _ | .array _ | .object _ | .spread _ | .func _ | .arrowBlock .. | .cls _ | .update .. | .new .. => rfl

theorem Expr.unstamp_anyContainsIn (cx : Context) (es : List Expr) :
    Expr.anyContainsIn (Expr.walkScopesList unstamp cx es).run = Expr.anyContainsIn es := by
  match es with
  | [] => rfl
  | e :: es => exact congrArg₂ (· || ·) (Expr.unstamp_containsIn cx e) (Expr.unstamp_anyContainsIn cx es)

end

theorem Expr.unstamp_lastIsHole (cx : Context) (es : List Expr) :
    (Expr.walkScopesList unstamp cx es).run.getLast?.any Expr.isHole = es.getLast?.any Expr.isHole := by
  match es with
  | [] => rfl
  | [e] => exact Expr.unstamp_isHole cx e
  | e :: e' :: es => exact Expr.unstamp_lastIsHole cx (e' :: es)

theorem Stmt.unstamp_body (cx : Context) (depth : Nat) (t : Stmt) (text : Nat → String) :
    Print.body depth (t.walkScopes unstamp cx none).run text = Print.body depth t text := by
  cases t with
  | exportNames specs source => cases source <;> rfl
  | _ => rfl

/-- Whether an element of a pattern is left out. -/
def Declarator.isHole : Declarator → Bool
  | .mk _ .hole _ => true
  | _ => false

theorem Declarator.unstamp_lastIsHole (cx : Context) (kind : BindingKind) (origin : Origin) (ds : List Declarator) :
    (Declarator.walkScopesElems unstamp cx kind origin ds).run.getLast?.any Declarator.isHole =
      ds.getLast?.any Declarator.isHole := by
  match ds with
  | [] => rfl
  | [.mk _ .hole _] | [.mk _ (.ident _) _] | [.mk _ (.array ..) _] | [.mk _ (.object ..) _] => rfl
  | _ :: d :: ds => exact Declarator.unstamp_lastIsHole cx kind origin (d :: ds)

/-- A comma stands after a last element that is left out. -/
theorem Pattern.print_array (depth : Nat) (elems : List Declarator) (rest : Option Pattern) :
    (Pattern.array elems rest).print depth =
      "[" ++ withRest (Declarator.printList depth false elems) (rest.map (·.print depth)) ++
        (if elems.getLast?.any Declarator.isHole && rest.isNone then "," else "") ++ "]" := by
  rw [Pattern.print.eq_def]
  dsimp only
  rcases elems.getLast? with _ | ⟨_, target, _⟩
  · cases rest <;> rfl
  · cases rest <;> cases target <;> rfl

theorem Property.print_keyed (depth : Nat) (key : Expr) (kind : MemberKind) {value : Expr}
    (h : ∀ f, value ≠ .func f) (computed : Bool) :
    (Property.keyed key kind value computed).print depth =
      Print.key computed (key.print (depth + 1) (keyLevel computed)) ++ ": " ++
        value.print (depth + 1) Level.assignment := by
  cases value with
  | func f => exact absurd rfl (h f)
  | _ => rfl

theorem Expr.unstamp_ne_func {e : Expr} (cx : Context) (h : ∀ f, e ≠ .func f) :
    ∀ f, (e.walkScopes unstamp cx).run ≠ .func f := by
  intro f
  cases e with
  | func g => exact absurd rfl (h g)
  | _ => exact nofun

theorem Func.unstamp_words (cx : Context) (isOwn : Bool) (f : Func) :
    functionWords (f.walkScopes unstamp cx isOwn).run = functionWords f := by
  cases f with
  | mk name params rest body async generator => cases name <;> cases isOwn <;> rfl

theorem Func.unstamp_methodWords (cx : Context) (isOwn : Bool) (kind : MemberKind) (f : Func) :
    methodWords kind (f.walkScopes unstamp cx isOwn).run = methodWords kind f := by
  cases f
  rfl

theorem Declarator.unstamp_isShorthand (cx : Context) (kind : BindingKind) (origin : Origin) (key : Expr)
    (d : Declarator) :
    isShorthand key false (d.walkScopesElem unstamp cx kind origin).run = isShorthand key false d := by
  match d with
  | .mk _ .hole _ | .mk _ (.ident _) _ | .mk _ (.array ..) _ | .mk _ (.object ..) _ => rfl

theorem Stmt.unstamp_isCond (cx : Context) (t : Stmt) :
    (t.walkScopes unstamp cx none).run.isCond = t.isCond := by
  cases t with
  | exportNames specs source => cases source <;> rfl
  | _ => rfl

theorem Stmt.print_cond (depth : Nat) (test : Expr) (yes no : Stmt) :
    (Stmt.cond test yes (some no)).print depth =
      "if (" ++ test.print depth Level.sequence ++ ") " ++ Print.body depth yes (fun d => yes.print d) ++
        (" else " ++ if no.isCond then no.print depth else Print.body depth no (fun d => no.print d)) := by
  cases no <;> rfl

theorem isShorthand_computed (key : Expr) (d : Declarator) : isShorthand key true d = false := by
  match d with
  | .mk _ .hole _ | .mk _ (.ident _) _ | .mk _ (.array ..) _ | .mk _ (.object ..) _ => rfl

theorem importDecl_map {g : ImportSpec → ImportSpec} (hi : ∀ s, (g s).imported = s.imported)
    (hb : ∀ s, (g s).binder.name = s.binder.name) (specs : List ImportSpec) (source : StringLit) :
    Print.importDecl (specs.map g) source = Print.importDecl specs source := by
  simp only [Print.importDecl, importClause, List.isEmpty_map, List.filter_map, List.foldl_map, List.map_map,
    Function.comp_def, hi, hb]

theorem exportNames_map {g : ExportSpec → ExportSpec} (he : ∀ s, (g s).exported = s.exported)
    (hs : ∀ s, (g s).source.name = s.source.name) (specs : List ExportSpec) (source : Option StringLit) :
    Print.exportNames (specs.map g) source = Print.exportNames specs source := by
  simp only [Print.exportNames, List.isEmpty_map, List.map_map, Function.comp_def, he, hs]

mutual

theorem Expr.unstamp_print (cx : Context) (e : Expr) (depth level : Nat) :
    (e.walkScopes unstamp cx).run.print depth level = e.print depth level := by
  match e with
  | .hole | .this | .super | .null | .bool _ | .number .. | .string _ | .regExp .. | .ident _ => rfl
  | .template none chunks es =>
    simp only [Expr.walkScopes, Expr.walkScopesOpt, Id.run_bind, Id.run_pure, Expr.print, Expr.unstamp_printList]
    rfl
  | .template (some tag) chunks es =>
    simp only [Expr.walkScopes, Expr.walkScopesOpt, Id.run_bind, Id.run_pure, Expr.print, Expr.unstamp_printList,
      Expr.unstamp_print]
    rfl
  | .array es =>
    simp only [Expr.walkScopes, Id.run_bind, Id.run_pure, Expr.print, Expr.unstamp_printList, Expr.unstamp_lastIsHole]
    rfl
  | .object ps =>
    simp only [Expr.walkScopes, Id.run_bind, Id.run_pure, Expr.print, Property.unstamp_printList]
    rfl
  | .spread e | .await e | .update op e post =>
    simp only [Expr.walkScopes, Id.run_bind, Id.run_pure, Expr.print, Expr.unstamp_print]
    rfl
  | .func f =>
    simp only [Expr.walkScopes, Id.run_bind, Id.run_pure, Expr.print, Func.unstamp_print, Func.unstamp_words]
    rfl
  | .arrow params none body async =>
    simp only [Expr.walkScopes, Pattern.walkScopesOpt, unstamp_inScope, Id.run_bind, Id.run_pure, Expr.print,
      Declarator.unstamp_printElems, Expr.unstamp_print, Expr.unstamp_opensBrace]
    rfl
  | .arrow params (some rest) body async =>
    simp only [Expr.walkScopes, Pattern.walkScopesOpt, unstamp_inScope, Id.run_bind, Id.run_pure, Expr.print,
      Declarator.unstamp_printElems, Pattern.unstamp_print, Expr.unstamp_print, Expr.unstamp_opensBrace]
    rfl
  | .arrowBlock params none body async =>
    simp only [Expr.walkScopes, Pattern.walkScopesOpt, unstamp_inScope, Id.run_bind, Id.run_pure, Expr.print,
      Declarator.unstamp_printElems, Stmt.unstamp_printList]
    rfl
  | .arrowBlock params (some rest) body async =>
    simp only [Expr.walkScopes, Pattern.walkScopesOpt, unstamp_inScope, Id.run_bind, Id.run_pure, Expr.print,
      Declarator.unstamp_printElems, Pattern.unstamp_print, Stmt.unstamp_printList]
    rfl
  | .cls c =>
    simp only [Expr.walkScopes, Id.run_bind, Id.run_pure, Expr.print, Class.unstamp_print]
    rfl
  | .unary op e =>
    simp only [Expr.walkScopes, Id.run_bind, Id.run_pure, Expr.print, Expr.unstamp_print, UnaryOp.unstamp_fuses]
    rfl
  | .binary op l r =>
    simp only [Expr.walkScopes, Id.run_bind, Id.run_pure, Expr.print, BinaryOp.unstamp_operandLevel, Expr.unstamp_print]
    rfl
  | .assign op l r =>
    simp only [Expr.walkScopes, Id.run_bind, Id.run_pure, Expr.print, Expr.unstamp_print]
    rfl
  | .cond test yes no =>
    simp only [Expr.walkScopes, Id.run_bind, Id.run_pure, Expr.print, Expr.unstamp_print]
    rfl
  | .seq es =>
    simp only [Expr.walkScopes, Id.run_bind, Id.run_pure, Expr.print, Expr.unstamp_printList]
    rfl
  | .call callee args optional =>
    simp only [Expr.walkScopes, Id.run_bind, Id.run_pure, Expr.print, Expr.unstamp_print, Expr.unstamp_printList]
    rfl
  | .new callee args =>
    simp only [Expr.walkScopes, Id.run_bind, Id.run_pure, Expr.print, Expr.unstamp_print, Expr.unstamp_printList,
      Expr.unstamp_containsCall]
    rfl
  | .member o name optional =>
    simp only [Expr.walkScopes, Id.run_bind, Id.run_pure, Expr.print, Expr.unstamp_print, Expr.unstamp_isBareInteger]
    rfl
  | .index o key optional =>
    simp only [Expr.walkScopes, Id.run_bind, Id.run_pure, Expr.print, Expr.unstamp_print, Expr.unstamp_isBareInteger]
    rfl
  | .yield none delegate => rfl
  | .yield (some arg) delegate =>
    simp only [Expr.walkScopes, Expr.walkScopesOpt, Id.run_bind, Id.run_pure, Expr.print, Expr.unstamp_print]
    rfl

theorem Expr.unstamp_printList (cx : Context) (es : List Expr) (depth level : Nat) :
    Expr.printList depth level (Expr.walkScopesList unstamp cx es).run = Expr.printList depth level es := by
  match es with
  | [] => rfl
  | e :: es =>
    exact congrArg₂ List.cons (Expr.unstamp_print cx e depth level) (Expr.unstamp_printList cx es depth level)

theorem Property.unstamp_print (cx : Context) (p : Property) (depth : Nat) :
    (p.walkScopes unstamp cx).run.print depth = p.print depth := by
  match p with
  | .short id none => rfl
  | .short id (some init) =>
    simp only [Property.walkScopes, Expr.walkScopesOpt, Id.run_bind, Id.run_pure, Property.print, Expr.unstamp_print]
    rfl
  | .keyed key kind value computed =>
    have hk : ∀ level, (key.walkScopes unstamp cx.read).run.print (depth + 1) level = key.print (depth + 1) level :=
      Expr.unstamp_print cx.read key (depth + 1)
    have hv := Expr.unstamp_print cx value (depth + 1) Level.assignment
    have other (hf : ∀ f, value ≠ .func f) :
        ((Property.keyed key kind value computed).walkScopes unstamp cx).run.print depth =
          (Property.keyed key kind value computed).print depth := by
      cases computed <;>
      simp only [Property.walkScopes, Id.run_bind, Id.run_pure, Property.print_keyed _ _ _ hf,
        Property.print_keyed _ _ _ (Expr.unstamp_ne_func cx hf), hv, hk, if_true, if_false, Bool.false_eq_true]
    cases value with
    | func f =>
      have hf := Func.unstamp_print cx true f (depth + 1)
      cases computed <;>
      simp only [Property.walkScopes, Expr.walkScopes, Id.run_bind, Id.run_pure, Property.print, hf,
        Func.unstamp_words, Func.unstamp_methodWords, hk, if_true, if_false, Bool.false_eq_true]
    | _ => exact other nofun
  | .spread e =>
    simp only [Property.walkScopes, Id.run_bind, Id.run_pure, Property.print, Expr.unstamp_print]

theorem Property.unstamp_printList (cx : Context) (ps : List Property) (depth : Nat) :
    Property.printList depth (Property.walkScopesList unstamp cx ps).run = Property.printList depth ps := by
  match ps with
  | [] => rfl
  | p :: ps => exact congrArg₂ List.cons (Property.unstamp_print cx p depth) (Property.unstamp_printList cx ps depth)

theorem Func.unstamp_print (cx : Context) (isOwn : Bool) (f : Func) (depth : Nat) :
    (f.walkScopes unstamp cx isOwn).run.print depth = f.print depth := by
  match f with
  | .mk name params none body async generator =>
    simp only [Func.walkScopes, Pattern.walkScopesOpt, unstamp_inScope, Id.run_bind, Id.run_pure, Func.print,
      Declarator.unstamp_printElems, Stmt.unstamp_printList]
  | .mk name params (some rest) body async generator =>
    simp only [Func.walkScopes, Pattern.walkScopesOpt, unstamp_inScope, Id.run_bind, Id.run_pure, Func.print,
      Declarator.unstamp_printElems, Pattern.unstamp_print, Stmt.unstamp_printList]

theorem Class.unstamp_print (cx : Context) (isOwn : Bool) (c : Class) (depth : Nat) :
    (c.walkScopes unstamp cx isOwn).run.print depth = c.print depth := by
  match c with
  | .mk name none body decorators =>
    simp only [Class.walkScopes, Expr.walkScopesOpt, unstamp_inScope, Id.run_bind, Id.run_pure, Class.print,
      Expr.unstamp_printList, ClassElement.unstamp_printList]
    cases name <;> cases isOwn <;> rfl
  | .mk name (some superclass) body decorators =>
    simp only [Class.walkScopes, Expr.walkScopesOpt, unstamp_inScope, Id.run_bind, Id.run_pure, Class.print,
      Expr.unstamp_printList, Expr.unstamp_print, ClassElement.unstamp_printList]
    cases name <;> cases isOwn <;> rfl

theorem ClassElement.unstamp_print (cx : Context) (e : ClassElement) (depth : Nat) :
    (e.walkScopes unstamp cx).run.print depth = e.print depth := by
  match e with
  | .field key none computed isStatic =>
    cases computed <;>
    simp only [ClassElement.walkScopes, Expr.walkScopesOpt, Id.run_bind, Id.run_pure, ClassElement.print,
      Expr.unstamp_print, if_true, if_false, Bool.false_eq_true]
  | .field key (some init) computed isStatic =>
    cases computed <;>
    simp only [ClassElement.walkScopes, Expr.walkScopesOpt, Id.run_bind, Id.run_pure, ClassElement.print,
      Expr.unstamp_print, if_true, if_false, Bool.false_eq_true]
  | .method key kind f computed isStatic =>
    cases computed <;>
    simp only [ClassElement.walkScopes, Id.run_bind, Id.run_pure, ClassElement.print, Func.unstamp_print,
      Func.unstamp_methodWords, Expr.unstamp_print, if_true, if_false, Bool.false_eq_true]
  | .block body =>
    simp only [ClassElement.walkScopes, unstamp_inScope, Id.run_bind, Id.run_pure, ClassElement.print,
      Stmt.unstamp_printList]

theorem ClassElement.unstamp_printList (cx : Context) (es : List ClassElement) (depth : Nat) :
    ClassElement.printList depth (ClassElement.walkScopesList unstamp cx es).run = ClassElement.printList depth es := by
  match es with
  | [] => rfl
  | e :: es =>
    exact congrArg₂ List.cons (ClassElement.unstamp_print cx e depth) (ClassElement.unstamp_printList cx es depth)

theorem Pattern.unstamp_print (cx : Context) (kind : BindingKind) (origin : Origin) (p : Pattern) (depth : Nat) :
    (p.walkScopes unstamp cx kind origin).run.print depth = p.print depth := by
  match p with
  | .hole | .ident _ => rfl
  | .array elems none =>
    simp only [Pattern.walkScopes, Pattern.walkScopesOpt, Id.run_bind, Id.run_pure, Pattern.print_array,
      Declarator.unstamp_printElems, Declarator.unstamp_lastIsHole]
  | .array elems (some rest) =>
    simp only [Pattern.walkScopes, Pattern.walkScopesOpt, Id.run_bind, Id.run_pure, Pattern.print_array,
      Declarator.unstamp_printElems, Declarator.unstamp_lastIsHole, Option.map_some, Pattern.unstamp_print,
      Option.isNone_some]
  | .object props none =>
    simp only [Pattern.walkScopes, Pattern.walkScopesOpt, Id.run_bind, Id.run_pure, Pattern.print,
      PatternProp.unstamp_printList]
    cases props <;> rfl
  | .object props (some rest) =>
    simp only [Pattern.walkScopes, Pattern.walkScopesOpt, Id.run_bind, Id.run_pure, Pattern.print,
      PatternProp.unstamp_printList, Pattern.unstamp_print]
    cases props <;> rfl

theorem Declarator.unstamp_printElem (cx : Context) (kind : BindingKind) (origin : Origin)
    (d : Declarator) (depth : Nat) (inHead : Bool) :
    (d.walkScopesElem unstamp cx kind origin).run.print depth inHead = d.print depth inHead := by
  match d with
  | .mk site target none =>
    simp only [Declarator.walkScopesElem, Expr.walkScopesOpt, Id.run_bind, Id.run_pure, Declarator.print,
      Pattern.unstamp_print]
  | .mk site target (some init) =>
    simp only [Declarator.walkScopesElem, Expr.walkScopesOpt, Id.run_bind, Id.run_pure, Declarator.print,
      Pattern.unstamp_print, Expr.unstamp_print, Expr.unstamp_containsIn]

theorem Declarator.unstamp_printElems (cx : Context) (kind : BindingKind) (origin : Origin)
    (ds : List Declarator) (depth : Nat) (inHead : Bool) :
    Declarator.printList depth inHead (Declarator.walkScopesElems unstamp cx kind origin ds).run =
      Declarator.printList depth inHead ds := by
  match ds with
  | [] => rfl
  | d :: ds =>
    exact congrArg₂ List.cons (Declarator.unstamp_printElem cx kind origin d depth inHead)
      (Declarator.unstamp_printElems cx kind origin ds depth inHead)

theorem PatternProp.unstamp_print (cx : Context) (kind : BindingKind) (origin : Origin) (p : PatternProp)
    (depth : Nat) : (p.walkScopes unstamp cx kind origin).run.print depth = p.print depth := by
  match p with
  | .mk key false shorthand value =>
    simp only [PatternProp.walkScopes, Id.run_bind, Id.run_pure, PatternProp.print, Declarator.unstamp_printElem,
      Bool.false_eq_true, if_false, Declarator.unstamp_isShorthand]
  | .mk key true shorthand value =>
    simp only [PatternProp.walkScopes, Id.run_bind, Id.run_pure, PatternProp.print, Declarator.unstamp_printElem,
      if_true, isShorthand_computed, Expr.unstamp_print, Bool.false_eq_true, if_false]

theorem PatternProp.unstamp_printList (cx : Context) (kind : BindingKind) (origin : Origin)
    (ps : List PatternProp) (depth : Nat) :
    PatternProp.printList depth (PatternProp.walkScopesList unstamp cx kind origin ps).run =
      PatternProp.printList depth ps := by
  match ps with
  | [] => rfl
  | p :: ps =>
    exact congrArg₂ List.cons (PatternProp.unstamp_print cx kind origin p depth)
      (PatternProp.unstamp_printList cx kind origin ps depth)

theorem Declarator.unstamp_printDecls (cx : Context) (kind : DeclKind) (isExported : Bool)
    (ds : List Declarator) (depth : Nat) (inHead : Bool) :
    Declarator.printList depth inHead (Declarator.walkScopesDecls unstamp cx kind isExported ds).run =
      Declarator.printList depth inHead ds := by
  match ds with
  | [] => rfl
  | .mk site target init :: ds =>
    cases isExported <;> cases init <;>
    simp only [Declarator.walkScopesDecls, Expr.walkScopesOpt, Id.run_bind, Id.run_pure, Declarator.printList,
      Declarator.print, Pattern.unstamp_print, Expr.unstamp_print, Expr.unstamp_containsIn,
      Declarator.unstamp_printDecls, if_true, if_false, Bool.false_eq_true]

theorem Stmt.unstamp_print (cx : Context) (container : Option Container) (t : Stmt) (depth : Nat) :
    (t.walkScopes unstamp cx container).run.print depth = t.print depth := by
  match t with
  | .empty | .debugger | .brk _ | .cont _ | .exportAll .. => rfl
  | .block body =>
    unfold Stmt.print
    simp only [Stmt.walkScopes, unstamp_inScope, Id.run_bind, Id.run_pure, Stmt.unstamp_printList]
  | .expr e =>
    unfold Stmt.print
    simp only [Stmt.walkScopes, Id.run_bind, Id.run_pure, Expr.unstamp_print, Expr.unstamp_opensBrace]
  | .cond test yes none =>
    unfold Stmt.print
    simp only [Stmt.walkScopes, Stmt.walkScopesOpt, Id.run_bind, Id.run_pure, Expr.unstamp_print,
      Stmt.unstamp_body, Stmt.unstamp_print]
  | .cond test yes (some no) =>
    simp only [Stmt.walkScopes, Stmt.walkScopesOpt, Id.run_bind, Id.run_pure, Stmt.print_cond, Expr.unstamp_print,
      Stmt.unstamp_body, Stmt.unstamp_isCond, Stmt.unstamp_print]
  | .ret none => rfl
  | .ret (some e) =>
    unfold Stmt.print
    simp only [Stmt.walkScopes, Expr.walkScopesOpt, Id.run_bind, Id.run_pure, Expr.unstamp_print]
  | .throw e =>
    unfold Stmt.print
    simp only [Stmt.walkScopes, Id.run_bind, Id.run_pure, Expr.unstamp_print]
  | .labelled label body =>
    unfold Stmt.print
    simp only [Stmt.walkScopes, Id.run_bind, Id.run_pure, Stmt.unstamp_print]
  | .while test body =>
    unfold Stmt.print
    simp only [Stmt.walkScopes, unstamp_inScope, Id.run_bind, Id.run_pure, Expr.unstamp_print,
      Stmt.unstamp_body, Stmt.unstamp_print]
  | .doWhile body test =>
    unfold Stmt.print
    simp only [Stmt.walkScopes, unstamp_inScope, Id.run_bind, Id.run_pure, Expr.unstamp_print,
      Stmt.unstamp_body, Stmt.unstamp_print]
  | .for head test update body =>
    cases test <;> cases update <;> unfold Stmt.print <;>
    simp only [Stmt.walkScopes, Expr.walkScopesOpt, unstamp_inScope, Id.run_bind, Id.run_pure, ForHead.unstamp_print, Expr.unstamp_print, Stmt.unstamp_body, Stmt.unstamp_print]
  | .forIn head source body =>
    unfold Stmt.print
    simp only [Stmt.walkScopes, unstamp_inScope, Id.run_bind, Id.run_pure, ForHead.unstamp_print,
      Expr.unstamp_print, Stmt.unstamp_body, Stmt.unstamp_print]
  | .forOf head source body await =>
    unfold Stmt.print
    simp only [Stmt.walkScopes, unstamp_inScope, Id.run_bind, Id.run_pure, ForHead.unstamp_print,
      Expr.unstamp_print, Stmt.unstamp_body, Stmt.unstamp_print]
  | .switch subject cases =>
    unfold Stmt.print
    simp only [Stmt.walkScopes, unstamp_inScope, Id.run_bind, Id.run_pure, Expr.unstamp_print,
      Case.unstamp_printList]
  | .tryCatch body param handler finalizer =>
    cases param <;> cases finalizer <;> unfold Stmt.print <;>
    simp only [Stmt.walkScopes, Stmt.walkScopesBlock, Pattern.walkScopesOpt, unstamp_inScope, Id.run_bind,
      Id.run_pure, Option.isSome, if_true, if_false, Bool.false_eq_true, Pattern.unstamp_print,
      Stmt.unstamp_printList]
  | .tryFinally body finalizer =>
    unfold Stmt.print
    simp only [Stmt.walkScopes, unstamp_inScope, Id.run_bind, Id.run_pure, Stmt.unstamp_printList]
  | .decl kind ds =>
    unfold Stmt.print
    simp only [Stmt.walkScopes, Id.run_bind, Id.run_pure, Declarator.unstamp_printDecls]
  | .func f =>
    have hw := Func.unstamp_words cx false f
    have hf := Func.unstamp_print cx false f depth
    cases f with
    | mk name params rest body async generator => cases name <;> exact congrArg₂ (· ++ ·) hw hf
  | .cls c =>
    have hc := Class.unstamp_print cx false c depth
    cases c with
    | mk name superclass body decorators => cases name <;> exact hc
  | .importDecl specs source =>
    unfold Stmt.print
    simp only [Stmt.walkScopes, Id.run_bind, Id.run_pure, List.idRun_mapM]
    refine importDecl_map ?_ ?_ specs source <;> exact fun _ => rfl
  | .exportDecl t =>
    unfold Stmt.print
    simp only [Stmt.walkScopes, Id.run_bind, Id.run_pure, Stmt.unstamp_print]
  | .exportNames specs none =>
    unfold Stmt.print
    simp only [Stmt.walkScopes, Option.isSome_none, Bool.false_eq_true, if_false, Id.run_bind, Id.run_pure,
      List.idRun_mapM]
    refine exportNames_map ?_ ?_ specs none <;> exact fun _ => rfl
  | .exportNames specs (some source) => rfl
  | .exportDefault t =>
    unfold Stmt.print
    simp only [Stmt.walkScopes, Id.run_bind, Id.run_pure, Stmt.unstamp_print]
  | .exportDefaultExpr e =>
    unfold Stmt.print
    simp only [Stmt.walkScopes, Id.run_bind, Id.run_pure, Expr.unstamp_print, Expr.unstamp_opensBrace]

theorem Stmt.unstamp_printList (cx : Context) (ts : List Stmt) (depth : Nat) :
    Stmt.printList depth (Stmt.walkScopesList unstamp cx ts).run = Stmt.printList depth ts := by
  match ts with
  | [] => rfl
  | t :: ts => exact congrArg₂ List.cons (Stmt.unstamp_print cx none t depth) (Stmt.unstamp_printList cx ts depth)

theorem ForHead.unstamp_print (cx : Context) (head : ForHead) (depth : Nat) (each : Bool) :
    (head.walkScopes unstamp cx).run.print depth each = head.print depth each := by
  match head with
  | .empty => rfl
  | .decl kind ds =>
    simp only [ForHead.walkScopes, Id.run_bind, Id.run_pure, ForHead.print, Declarator.unstamp_printDecls]
  | .expr e =>
    simp only [ForHead.walkScopes, Id.run_bind, Id.run_pure, ForHead.print, Expr.unstamp_print, Expr.unstamp_containsIn]

theorem Case.unstamp_print (cx : Context) (c : Case) (depth : Nat) :
    (c.walkScopes unstamp cx).run.print depth = c.print depth := by
  match c with
  | .mk none body =>
    simp only [Case.walkScopes, Expr.walkScopesOpt, Id.run_bind, Id.run_pure, Case.print, Stmt.unstamp_printList]
  | .mk (some test) body =>
    simp only [Case.walkScopes, Expr.walkScopesOpt, Id.run_bind, Id.run_pure, Case.print, Stmt.unstamp_printList,
      Expr.unstamp_print]

theorem Case.unstamp_printList (cx : Context) (cs : List Case) (depth : Nat) :
    Case.printList depth (Case.walkScopesList unstamp cx cs).run = Case.printList depth cs := by
  match cs with
  | [] => rfl
  | c :: cs => exact congrArg₂ List.cons (Case.unstamp_print cx c depth) (Case.unstamp_printList cx cs depth)

end

/-- The text of a program says nothing of its stamps. -/
theorem Program.unstamped_print (p : Program) : p.unstamped.print = p.print := by
  rw [Program.print, Program.print, ← Stmt.unstamp_printList {} p.body 0]
  rfl

end Deadwood
