import Deadwood.Proofs.ScopeWalk
import Deadwood.Scope.Resolve

/-!
# Walking again

A walk that keeps the names of identifiers changes nothing but their stamps.  A walk that does not look at
stamps then does the same to the program and to what the first walk has left, so resolving a resolved program
again gives the same program and the same table.
-/

namespace Deadwood

open ScopeWalk

variable {σ : Type} {m : Type → Type} [Monad m] [LawfulMonad m]

/-- Identifiers keep their names. -/
structure ScopeVisitor.Restamps (v : ScopeVisitor (StateM σ)) : Prop where
  declare : ∀ inHead id kind origin s, (v.declare inHead id kind origin s).1.name = id.name
  refer : ∀ writing id s, (v.refer writing id s).1.name = id.name
  exportName : ∀ id s, (v.exportName id s).1.name = id.name
  inScope : ∀ {γ : Type} kind opener (act : StateM σ γ) s, ∃ t, (v.inScope kind opener act s).1 = (act t).1

/-- Only the names of identifiers matter. -/
structure ScopeVisitor.Unstamped (w : ScopeVisitor m) : Prop where
  site : ∀ a b, w.site a = w.site b
  declare : ∀ inHead {id id' : Ident} kind origin, id.name = id'.name →
    w.declare inHead id kind origin = w.declare inHead id' kind origin
  refer : ∀ writing {id id' : Ident}, id.name = id'.name → w.refer writing id = w.refer writing id'
  exportName : ∀ {id id' : Ident}, id.name = id'.name → w.exportName id = w.exportName id'
  scope_map : ∀ {γ δ : Type} (f : γ → δ) (act : m γ) kind opener,
    w.inScope kind opener (f <$> act) = f <$> w.inScope kind opener act

variable {v : ScopeVisitor (StateM σ)} {w : ScopeVisitor m}

/-! ### Names that are declared outside -/

theorem Func.withName_withName (f : Func) (name name' : Option Ident) :
    (f.withName name).withName name' = f.withName name' := by
  cases f
  rfl

theorem Class.withName_withName (c : Class) (name name' : Option Ident) :
    (c.withName name).withName name' = c.withName name' := by
  cases c
  rfl

theorem Func.walkScopes_withName (hw : w.Unstamped) (cx : Context) (f : Func) (name : Option Ident)
    {γ : Type} (k : Func → m γ) (hk : ∀ f name, k (f.withName name) = k f) :
    (f.withName name).walkScopes w cx false >>= k = f.walkScopes w cx false >>= k := by
  have hk : k = fun f => k (f.withName none) := funext fun f => (hk f none).symm
  -- The name is put in its place inside of the scope, and taken out again after it.
  have hnone (f : Func) : (·.withName none) <$> f.walkScopes w cx false =
      (f.withName none).walkScopes w cx false := by
    cases f with
    | mk name params rest body async generator =>
      rw [Func.walkScopes, ← hw.scope_map, Func.withName, Func.walkScopes]
      cases name <;>
        simp only [ScopeVisitor.ownName, Bool.false_eq_true, if_false, pure_bind, map_bind, map_pure, Func.withName]
  rw [hk]
  calc
    _ = (·.withName none) <$> (f.withName name).walkScopes w cx false >>= k := (bind_map_left _ _ _).symm
    _ = (·.withName none) <$> f.walkScopes w cx false >>= k := by
      rw [hnone, hnone, Func.withName_withName]
    _ = _ := bind_map_left _ _ _

theorem Class.walkScopes_withName (hw : w.Unstamped) (cx : Context) (c : Class) (name : Option Ident)
    {γ : Type} (k : Class → m γ) (hk : ∀ c name, k (c.withName name) = k c) :
    (c.withName name).walkScopes w cx false >>= k = c.walkScopes w cx false >>= k := by
  have hk : k = fun c => k (c.withName none) := funext fun c => (hk c none).symm
  have hnone (c : Class) : (·.withName none) <$> c.walkScopes w cx false =
      (c.withName none).walkScopes w cx false := by
    cases c with
    | mk name superclass body decorators =>
      simp only [Class.walkScopes, map_bind, Class.withName, ← hw.scope_map]
      cases name <;>
        simp only [ScopeVisitor.ownName, Bool.false_eq_true, if_false, pure_bind, map_pure]
  rw [hk]
  calc
    _ = (·.withName none) <$> (c.withName name).walkScopes w cx false >>= k := (bind_map_left _ _ _).symm
    _ = (·.withName none) <$> c.walkScopes w cx false >>= k := by
      rw [hnone, hnone, Class.withName_withName]
    _ = _ := bind_map_left _ _ _

/-! ### Lists of names -/

section

variable {γ : Type} (act : γ → StateM σ γ) (act' : γ → m γ)

omit [LawfulMonad m] in
theorem mapM_option_again (h : ∀ c s, act' (act c s).1 = act' c) (c : Option γ) (s : σ) :
    (c.mapM act s).1.mapM act' = c.mapM act' := by
  cases c with
  | none => rfl
  | some c => exact congrArg (some <$> ·) (h c s)

theorem mapM_list_again (h : ∀ c s, act' (act c s).1 = act' c) (cs : List γ) (s : σ) :
    (cs.mapM act s).1.mapM act' = cs.mapM act' := by
  induction cs generalizing s with
  | nil => rfl
  | cons c cs ih => simp only [List.mapM_cons, run_bind, run_pure, h, ih]

end

/-! ### Programs -/

section

variable (hv : v.Restamps) (hw : w.Unstamped)

include hv hw

omit [LawfulMonad m] in
theorem ScopeVisitor.ownName_again (cx : Context) (isOwn : Bool) (origin : Origin) (id : Option Ident) (s : σ) :
    w.ownName cx isOwn origin (v.ownName cx isOwn origin id s).1 = w.ownName cx isOwn origin id := by
  cases id with
  | none => rfl
  | some id =>
    cases isOwn with
    | false => rfl
    | true =>
      have hid := hv.declare cx.inHead id .own (fun _ => origin) s
      simp only [ScopeVisitor.ownName, if_true, run_bind, run_pure, hw.declare _ _ _ hid]

set_option linter.unusedSectionVars false

mutual

theorem Expr.walkScopes_again (cx : Context) (e : Expr) (s : σ) :
    (e.walkScopes v cx s).1.walkScopes w cx = e.walkScopes w cx := by
  match e with
  | .hole | .this | .super | .null | .bool _ | .number .. | .string _ | .regExp .. => rfl
  | .ident id => simp only [Expr.walkScopes, run_bind, run_pure, hw.refer _ (hv.refer _ id s)]
  | .template tag chunks es =>
    simp only [Expr.walkScopes, run_bind, run_pure, Expr.walkScopesOpt_again, Expr.walkScopesList_again]
  | .array es | .seq es => simp only [Expr.walkScopes, run_bind, run_pure, Expr.walkScopesList_again]
  | .object ps => simp only [Expr.walkScopes, run_bind, run_pure, Property.walkScopesList_again]
  | .spread e | .unary _ e | .update _ e _ | .await e =>
    simp only [Expr.walkScopes, run_bind, run_pure, Expr.walkScopes_again]
  | .func f => simp only [Expr.walkScopes, run_bind, run_pure, Func.walkScopes_again]
  | .arrow params rest body async =>
    rw [Expr.walkScopes]
    obtain ⟨t, ht⟩ := hv.inScope .function .arrow _ s
    rw [ht]
    simp only [Expr.walkScopes, run_bind, run_pure, Declarator.walkScopesElems_again cx.read,
      Pattern.walkScopesOpt_again cx.read, Expr.walkScopes_again cx.read]
  | .arrowBlock params rest body async =>
    rw [Expr.walkScopes]
    obtain ⟨t, ht⟩ := hv.inScope .function .arrow _ s
    rw [ht]
    simp only [Expr.walkScopes, run_bind, run_pure, Declarator.walkScopesElems_again cx.read,
      Pattern.walkScopesOpt_again cx.read, Stmt.walkScopesList_again cx.read]
  | .cls c => simp only [Expr.walkScopes, run_bind, run_pure, Class.walkScopes_again]
  | .binary op l r | .assign op l r =>
    simp only [Expr.walkScopes, run_bind, run_pure, Expr.walkScopes_again]
  | .cond test yes no => simp only [Expr.walkScopes, run_bind, run_pure, Expr.walkScopes_again]
  | .call callee args optional | .new callee args =>
    simp only [Expr.walkScopes, run_bind, run_pure, Expr.walkScopes_again, Expr.walkScopesList_again]
  | .member object name optional => simp only [Expr.walkScopes, run_bind, run_pure, Expr.walkScopes_again]
  | .index object key optional => simp only [Expr.walkScopes, run_bind, run_pure, Expr.walkScopes_again]
  | .yield arg delegate => simp only [Expr.walkScopes, run_bind, run_pure, Expr.walkScopesOpt_again]

theorem Expr.walkScopesOpt_again (cx : Context) (e : Option Expr) (s : σ) :
    Expr.walkScopesOpt w cx (Expr.walkScopesOpt v cx e s).1 = Expr.walkScopesOpt w cx e := by
  match e with
  | none => rfl
  | some e => simp only [Expr.walkScopesOpt, run_bind, run_pure, Expr.walkScopes_again]

theorem Expr.walkScopesList_again (cx : Context) (es : List Expr) (s : σ) :
    Expr.walkScopesList w cx (Expr.walkScopesList v cx es s).1 = Expr.walkScopesList w cx es := by
  match es with
  | [] => rfl
  | e :: es =>
    simp only [Expr.walkScopesList, run_bind, run_pure, Expr.walkScopes_again, Expr.walkScopesList_again]

theorem Property.walkScopes_again (cx : Context) (p : Property) (s : σ) :
    (p.walkScopes v cx s).1.walkScopes w cx = p.walkScopes w cx := by
  match p with
  | .short id init =>
    simp only [Property.walkScopes, run_bind, run_pure, hw.refer _ (hv.refer _ id s), Expr.walkScopesOpt_again]
  | .keyed key kind value computed =>
    cases computed <;>
      simp only [Property.walkScopes, run_bind, run_pure, if_true, if_false, Bool.false_eq_true,
        Expr.walkScopes_again]
  | .spread e => simp only [Property.walkScopes, run_bind, run_pure, Expr.walkScopes_again]

theorem Property.walkScopesList_again (cx : Context) (ps : List Property) (s : σ) :
    Property.walkScopesList w cx (Property.walkScopesList v cx ps s).1 = Property.walkScopesList w cx ps := by
  match ps with
  | [] => rfl
  | p :: ps =>
    simp only [Property.walkScopesList, run_bind, run_pure, Property.walkScopes_again,
      Property.walkScopesList_again]

theorem Func.walkScopes_again (cx : Context) (isOwn : Bool) (f : Func) (s : σ) :
    (f.walkScopes v cx isOwn s).1.walkScopes w cx isOwn = f.walkScopes w cx isOwn := by
  match f with
  | .mk name params rest body async generator =>
    rw [Func.walkScopes]
    obtain ⟨t, ht⟩ := hv.inScope .function .function _ s
    rw [ht]
    simp only [Func.walkScopes, run_bind, run_pure, ScopeVisitor.ownName_again hv hw,
      Declarator.walkScopesElems_again, Pattern.walkScopesOpt_again, Stmt.walkScopesList_again]

theorem Class.walkScopes_again (cx : Context) (isOwn : Bool) (c : Class) (s : σ) :
    (c.walkScopes v cx isOwn s).1.walkScopes w cx isOwn = c.walkScopes w cx isOwn := by
  match c with
  | .mk name superclass body decorators =>
    simp only [Class.walkScopes, run_bind]
    obtain ⟨t, ht⟩ := hv.inScope .cls .cls _ _
    rw [ht]
    simp only [Class.walkScopes, run_bind, run_pure, ScopeVisitor.ownName_again hv hw, Expr.walkScopesList_again,
      Expr.walkScopesOpt_again, ClassElement.walkScopesList_again]

theorem ClassElement.walkScopes_again (cx : Context) (e : ClassElement) (s : σ) :
    (e.walkScopes v cx s).1.walkScopes w cx = e.walkScopes w cx := by
  match e with
  | .field key init computed isStatic =>
    cases computed <;>
      simp only [ClassElement.walkScopes, run_bind, run_pure, if_true, if_false, Bool.false_eq_true,
        Expr.walkScopes_again, Expr.walkScopesOpt_again]
  | .method key kind body computed isStatic =>
    cases computed <;>
      simp only [ClassElement.walkScopes, run_bind, run_pure, if_true, if_false, Bool.false_eq_true,
        Expr.walkScopes_again, Func.walkScopes_again]
  | .block body =>
    simp only [ClassElement.walkScopes, run_bind, run_pure]
    obtain ⟨t, ht⟩ := hv.inScope .block .block (Stmt.walkScopesList v cx body) s
    rw [ht, Stmt.walkScopesList_again]

theorem ClassElement.walkScopesList_again (cx : Context) (es : List ClassElement) (s : σ) :
    ClassElement.walkScopesList w cx (ClassElement.walkScopesList v cx es s).1 =
      ClassElement.walkScopesList w cx es := by
  match es with
  | [] => rfl
  | e :: es =>
    simp only [ClassElement.walkScopesList, run_bind, run_pure, ClassElement.walkScopes_again,
      ClassElement.walkScopesList_again]

theorem Pattern.walkScopes_again (cx : Context) (kind : BindingKind) (origin origin' : Origin) (p : Pattern)
    (s : σ) :
    (p.walkScopes v cx kind origin s).1.walkScopes w cx kind origin' = p.walkScopes w cx kind origin' := by
  match p with
  | .hole => rfl
  | .ident id =>
    simp only [Pattern.walkScopes, run_bind, run_pure,
      hw.declare _ _ _ (hv.declare cx.inHead id kind (fun _ => origin) s)]
  | .array elems rest =>
    simp only [Pattern.walkScopes, run_bind, run_pure, Declarator.walkScopesElems_again,
      Pattern.walkScopesOpt_again]
  | .object props rest =>
    simp only [Pattern.walkScopes, run_bind, run_pure, PatternProp.walkScopesList_again,
      Pattern.walkScopesOpt_again]

theorem Pattern.walkScopesOpt_again (cx : Context) (kind : BindingKind) (origin origin' : Origin)
    (p : Option Pattern) (s : σ) :
    Pattern.walkScopesOpt w cx kind origin' (Pattern.walkScopesOpt v cx kind origin p s).1 =
      Pattern.walkScopesOpt w cx kind origin' p := by
  match p with
  | none => rfl
  | some p => simp only [Pattern.walkScopesOpt, run_bind, run_pure, Pattern.walkScopes_again]

theorem Declarator.walkScopesElem_again (cx : Context) (kind : BindingKind) (origin origin' : Origin)
    (d : Declarator) (s : σ) :
    (d.walkScopesElem v cx kind origin s).1.walkScopesElem w cx kind origin' =
      d.walkScopesElem w cx kind origin' := by
  match d with
  | .mk site target init =>
    simp only [Declarator.walkScopesElem, run_bind, run_pure, hw.site _ site, Expr.walkScopesOpt_again,
      Pattern.walkScopes_again]

theorem Declarator.walkScopesElems_again (cx : Context) (kind : BindingKind) (origin origin' : Origin)
    (ds : List Declarator) (s : σ) :
    Declarator.walkScopesElems w cx kind origin' (Declarator.walkScopesElems v cx kind origin ds s).1 =
      Declarator.walkScopesElems w cx kind origin' ds := by
  match ds with
  | [] => rfl
  | d :: ds =>
    simp only [Declarator.walkScopesElems, run_bind, run_pure, Declarator.walkScopesElem_again,
      Declarator.walkScopesElems_again]

theorem PatternProp.walkScopes_again (cx : Context) (kind : BindingKind) (origin origin' : Origin)
    (p : PatternProp) (s : σ) :
    (p.walkScopes v cx kind origin s).1.walkScopes w cx kind origin' = p.walkScopes w cx kind origin' := by
  match p with
  | .mk key computed shorthand value =>
    cases computed <;>
      simp only [PatternProp.walkScopes, run_bind, run_pure, if_true, if_false, Bool.false_eq_true,
        Expr.walkScopes_again, Declarator.walkScopesElem_again]

theorem PatternProp.walkScopesList_again (cx : Context) (kind : BindingKind) (origin origin' : Origin)
    (ps : List PatternProp) (s : σ) :
    PatternProp.walkScopesList w cx kind origin' (PatternProp.walkScopesList v cx kind origin ps s).1 =
      PatternProp.walkScopesList w cx kind origin' ps := by
  match ps with
  | [] => rfl
  | p :: ps =>
    simp only [PatternProp.walkScopesList, run_bind, run_pure, PatternProp.walkScopes_again,
      PatternProp.walkScopesList_again]

theorem Declarator.walkScopesDecls_again (cx : Context) (kind : DeclKind) (isExported : Bool)
    (ds : List Declarator) (s : σ) :
    Declarator.walkScopesDecls w cx kind isExported (Declarator.walkScopesDecls v cx kind isExported ds s).1 =
      Declarator.walkScopesDecls w cx kind isExported ds := by
  match ds with
  | [] => rfl
  | .mk site target init :: ds =>
    cases isExported <;>
      simp only [Declarator.walkScopesDecls, run_bind, run_pure, if_true, if_false, Bool.false_eq_true,
        hw.site _ site, Expr.walkScopesOpt_again, Pattern.walkScopes_again, Declarator.walkScopesDecls_again]

theorem Stmt.walkScopes_again (cx : Context) (container : Option Container) (t : Stmt) (s : σ) :
    (t.walkScopes v cx container s).1.walkScopes w cx container = t.walkScopes w cx container := by
  match t with
  | .empty | .debugger | .brk _ | .cont _ | .exportAll .. => rfl
  | .block body =>
    simp only [Stmt.walkScopes, run_bind, run_pure]
    obtain ⟨t, ht⟩ := hv.inScope .block .block (Stmt.walkScopesList v cx body) s
    rw [ht, Stmt.walkScopesList_again]
  | .expr e | .throw e | .exportDefaultExpr e =>
    simp only [Stmt.walkScopes, run_bind, run_pure, Expr.walkScopes_again]
  | .cond test yes no =>
    simp only [Stmt.walkScopes, run_bind, run_pure, Expr.walkScopes_again, Stmt.walkScopes_again,
      Stmt.walkScopesOpt_again]
  | .ret arg => simp only [Stmt.walkScopes, run_bind, run_pure, Expr.walkScopesOpt_again]
  | .labelled label body => simp only [Stmt.walkScopes, run_bind, run_pure, Stmt.walkScopes_again]
  | .while test body =>
    rw [Stmt.walkScopes]
    obtain ⟨t, ht⟩ := hv.inScope .block .whileLoop _ s
    rw [ht]
    simp only [Stmt.walkScopes, run_bind, run_pure, Expr.walkScopes_again, Stmt.walkScopes_again]
  | .doWhile body test =>
    rw [Stmt.walkScopes]
    obtain ⟨t, ht⟩ := hv.inScope .block .doLoop _ s
    rw [ht]
    simp only [Stmt.walkScopes, run_bind, run_pure, Expr.walkScopes_again, Stmt.walkScopes_again]
  | .for head test update body =>
    rw [Stmt.walkScopes]
    obtain ⟨t, ht⟩ := hv.inScope .block .forLoop _ s
    rw [ht]
    simp only [Stmt.walkScopes, run_bind, run_pure, ForHead.walkScopes_again, Expr.walkScopesOpt_again,
      Stmt.walkScopes_again]
  | .forIn head source body =>
    rw [Stmt.walkScopes]
    obtain ⟨t, ht⟩ := hv.inScope .block .forIn _ s
    rw [ht]
    simp only [Stmt.walkScopes, run_bind, run_pure, ForHead.walkScopes_again, Expr.walkScopes_again,
      Stmt.walkScopes_again]
  | .forOf head source body await =>
    rw [Stmt.walkScopes]
    obtain ⟨t, ht⟩ := hv.inScope .block .forOf _ s
    rw [ht]
    simp only [Stmt.walkScopes, run_bind, run_pure, ForHead.walkScopes_again, Expr.walkScopes_again,
      Stmt.walkScopes_again]
  | .switch subject cases =>
    simp only [Stmt.walkScopes, run_bind, run_pure]
    obtain ⟨t, ht⟩ := hv.inScope .block .switch (Case.walkScopesList v cx cases) (subject.walkScopes v cx s).2
    rw [ht]
    simp only [Expr.walkScopes_again, Case.walkScopesList_again]
  | .tryCatch body param handler finalizer =>
    simp only [Stmt.walkScopes, run_bind, run_pure]
    obtain ⟨t, ht⟩ := hv.inScope .block .block (Stmt.walkScopesList v cx body) s
    obtain ⟨t', ht'⟩ := hv.inScope .block .handler (do
      if param.isSome then v.contain none
      let param ← Pattern.walkScopesOpt v cx .caught .handler param
      return (param, ← Stmt.walkScopesList v cx handler))
      (v.inScope .block .block (Stmt.walkScopesList v cx body) s).2
    rw [ht, ht']
    cases param <;>
      simp only [Option.isSome_none, Option.isSome_some, Bool.false_eq_true, if_true, if_false, run_bind, run_pure,
        Stmt.walkScopesList_again, Stmt.walkScopesBlock_again, Pattern.walkScopesOpt, Pattern.walkScopes_again]
  | .tryFinally body finalizer =>
    simp only [Stmt.walkScopes, run_bind, run_pure]
    obtain ⟨t, ht⟩ := hv.inScope .block .block (Stmt.walkScopesList v cx body) s
    obtain ⟨t', ht'⟩ := hv.inScope .block .block (Stmt.walkScopesList v cx finalizer)
      (v.inScope .block .block (Stmt.walkScopesList v cx body) s).2
    rw [ht, ht']
    simp only [Stmt.walkScopesList_again]
  | .decl kind list => simp only [Stmt.walkScopes, run_bind, run_pure, Declarator.walkScopesDecls_again]
  | .func f =>
    have hname := mapM_option_again (fun id => v.declare cx.inHead id .func .func)
      (fun id => w.declare cx.inHead id .func .func)
      fun id s => hw.declare cx.inHead .func .func (hv.declare cx.inHead id .func .func s)
    simp only [Stmt.walkScopes, run_bind, run_pure, Func.withName_name, hname]
    refine bind_congr fun _ => bind_congr fun name => ?_
    rw [Func.walkScopes_withName hw _ _ _ _ fun f n => by rw [Func.withName_withName], Func.walkScopes_again]
  | .cls c =>
    have hname := mapM_option_again (fun id => do v.contain container; v.declare cx.inHead id .cls .cls)
      (fun id => do w.contain container; w.declare cx.inHead id .cls .cls)
      fun id s => bind_congr fun _ => hw.declare cx.inHead .cls .cls (hv.declare cx.inHead id .cls .cls _)
    simp only [Stmt.walkScopes, run_bind, run_pure, Class.withName_name, hname]
    rw [Class.walkScopes_withName hw _ _ _ _ fun c n => by simp only [Class.withName_withName],
      Class.walkScopes_again]
  | .importDecl specs source =>
    have hspecs := mapM_list_again
      (fun i : ImportSpec => do
        v.contain (some .importDecl)
        return { i with binder := ← v.declare cx.inHead i.binder .module fun _ => .importDecl })
      (fun i : ImportSpec => do
        w.contain (some .importDecl)
        return { i with binder := ← w.declare cx.inHead i.binder .module fun _ => .importDecl })
      fun i s => by
        have hi := hv.declare cx.inHead i.binder .module (fun _ => .importDecl) (v.contain (some .importDecl) s).2
        simp only [run_bind, run_pure, hw.declare _ _ _ hi]
    simp only [Stmt.walkScopes, run_bind, run_pure, hspecs]
  | .exportDecl decl | .exportDefault decl => simp only [Stmt.walkScopes, run_bind, run_pure, Stmt.walkScopes_again]
  | .exportNames specs (some source) => rfl
  | .exportNames specs none =>
    have hspecs := mapM_list_again
      (fun e : ExportSpec => do return { e with source := ← v.exportName e.source })
      (fun e : ExportSpec => do return { e with source := ← w.exportName e.source })
      fun e s => by simp only [run_bind, run_pure, hw.exportName (hv.exportName e.source s)]
    simp only [Stmt.walkScopes, Option.isSome_none, Bool.false_eq_true, if_false, run_bind, run_pure, hspecs]

theorem Stmt.walkScopesOpt_again (cx : Context) (t : Option Stmt) (s : σ) :
    Stmt.walkScopesOpt w cx (Stmt.walkScopesOpt v cx t s).1 = Stmt.walkScopesOpt w cx t := by
  match t with
  | none => rfl
  | some t => simp only [Stmt.walkScopesOpt, run_bind, run_pure, Stmt.walkScopes_again]

theorem Stmt.walkScopesList_again (cx : Context) (ts : List Stmt) (s : σ) :
    Stmt.walkScopesList w cx (Stmt.walkScopesList v cx ts s).1 = Stmt.walkScopesList w cx ts := by
  match ts with
  | [] => rfl
  | t :: ts =>
    simp only [Stmt.walkScopesList, run_bind, run_pure, Stmt.walkScopes_again, Stmt.walkScopesList_again]

theorem Stmt.walkScopesBlock_again (cx : Context) (ts : Option (List Stmt)) (s : σ) :
    Stmt.walkScopesBlock w cx (Stmt.walkScopesBlock v cx ts s).1 = Stmt.walkScopesBlock w cx ts := by
  match ts with
  | none => rfl
  | some ts =>
    simp only [Stmt.walkScopesBlock, run_bind, run_pure]
    obtain ⟨t, ht⟩ := hv.inScope .block .block (Stmt.walkScopesList v cx ts) s
    rw [ht, Stmt.walkScopesList_again]

theorem ForHead.walkScopes_again (cx : Context) (head : ForHead) (s : σ) :
    (head.walkScopes v cx s).1.walkScopes w cx = head.walkScopes w cx := by
  match head with
  | .empty => rfl
  | .decl kind list => simp only [ForHead.walkScopes, run_bind, run_pure, Declarator.walkScopesDecls_again]
  | .expr e => simp only [ForHead.walkScopes, run_bind, run_pure, Expr.walkScopes_again]

theorem Case.walkScopes_again (cx : Context) (c : Case) (s : σ) :
    (c.walkScopes v cx s).1.walkScopes w cx = c.walkScopes w cx := by
  match c with
  | .mk test body =>
    simp only [Case.walkScopes, run_bind, run_pure, Expr.walkScopesOpt_again, Stmt.walkScopesList_again]

theorem Case.walkScopesList_again (cx : Context) (cs : List Case) (s : σ) :
    Case.walkScopesList w cx (Case.walkScopesList v cx cs s).1 = Case.walkScopesList w cx cs := by
  match cs with
  | [] => rfl
  | c :: cs => simp only [Case.walkScopesList, run_bind, run_pure, Case.walkScopes_again, Case.walkScopesList_again]

end

theorem Program.walkScopes_again (p : Program) (s : σ) : (p.walkScopes v s).1.walkScopes w = p.walkScopes w := by
  obtain ⟨t, ht⟩ := hv.inScope .program .program (do return Program.mk (← Stmt.walkScopesList v {} p.body)) s
  rw [show (p.walkScopes v s).1 = _ from ht]
  simp only [Program.walkScopes, run_bind, run_pure, Stmt.walkScopesList_again hv hw]

end

/-! ### Resolving again -/

theorem Hoist.visitor_restamps : Hoist.visitor.Restamps where
  declare inHead id kind origin s := by
    simp only [Hoist.visitor, Hoist.declare, run_bind, run_get]
    cases ((Hoist.fresh s).2.scope? ((Hoist.fresh s).2.holder kind)).bind (·.binding? id.name) <;> rfl
  refer _ _ _ := rfl
  exportName _ _ := rfl
  inScope _ _ _ _ := ⟨_, rfl⟩

theorem Hoist.visitor_unstamped : Hoist.visitor.Unstamped where
  site _ _ := rfl
  declare _ id id' _ _ h := by
    cases id
    cases id'
    cases h
    rfl
  refer _ id id' h := by
    cases id
    cases id'
    cases h
    rfl
  exportName {id id'} h := by
    cases id
    cases id'
    cases h
    rfl
  scope_map _ _ _ _ := rfl

theorem Resolve.visitor_restamps : Resolve.visitor.Restamps where
  declare _ id _ _ s := by
    simp only [Resolve.visitor, Resolve.declare, run_bind, run_get]
    cases s.info.declaration? id <;> rfl
  refer writing id s := by
    simp only [Resolve.visitor, Resolve.refer, run_bind, run_get]
    cases s.info.lookupIn s.path id.name <;> rfl
  exportName id s := by
    simp only [Resolve.visitor, Resolve.exportName, Resolve.refer, run_bind, run_get]
    cases s.info.lookupIn s.path id.name <;> rfl
  inScope _ _ _ _ := ⟨_, rfl⟩

/-- A resolved program is left as it is. -/
theorem Program.resolve_resolve (p : Program) : p.resolve.1.resolve = p.resolve := by
  have hp : p.resolve.1.walkScopes Hoist.visitor = p.walkScopes Hoist.visitor :=
    (Program.walkScopes_again Resolve.visitor_restamps Hoist.visitor_unstamped _ _).trans
      (Program.walkScopes_again Hoist.visitor_restamps Hoist.visitor_unstamped p _)
  rw [Program.resolve, hp]
  rfl

/-! ### Forgetting -/

/-- Forgets the stamps of identifiers. -/
def unstamp : ScopeVisitor Id where
  site _ := 0
  declare _ id _ _ := { name := id.name }
  refer _ id := { name := id.name }
  exportName id := { name := id.name }
  exportDeclared _ := ()
  inScope _ _ act := act
  contain _ := ()
  called _ := ()

/-- A program without the marks and sites that resolution gives to its identifiers. -/
def Program.unstamped (p : Program) : Program := Id.run (p.walkScopes unstamp)

theorem unstamp_unstamped : unstamp.Unstamped where
  site _ _ := rfl
  declare _ _ _ _ _ h := by simp only [unstamp, h]
  refer _ _ _ h := by simp only [unstamp, h]
  exportName h := by simp only [unstamp, h]
  scope_map _ _ _ _ := rfl

/-- Resolution changes nothing but stamps. -/
theorem Program.resolve_unstamped (p : Program) : p.resolve.1.unstamped = p.unstamped :=
  (Program.walkScopes_again Resolve.visitor_restamps unstamp_unstamped _ _).trans
    (Program.walkScopes_again Hoist.visitor_restamps unstamp_unstamped p _)

end Deadwood
