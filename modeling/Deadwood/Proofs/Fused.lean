import Deadwood.Proofs.Numbering

/-!
# Both walks of resolution at once

Resolution goes through a program twice, and the second walk meets what the first one has left.  A single walk
that does at every place what both do there, one after the other, leaves the same program and the same states.
So what relates the states of both walks at the same place can be shown like a property of one walk.
-/

namespace Deadwood

open ScopeWalk

/-! ### The sites of names that are declared -/

section

variable (cx : Context) (kind : BindingKind) (origin : Origin)

mutual

theorem Pattern.resolve_names (p : Pattern) (s : Resolve.State) :
    (p.walkScopes Resolve.visitor cx kind origin s).1.names.map Ident.site = p.names.map Ident.site := by
  match p with
  | .hole => rfl
  | .ident id => exact congrArg (fun x => [x]) (Resolve.declare_keeps id s).1
  | .array elems rest =>
    have he := Declarator.resolve_listNames elems s
    have hr := Pattern.resolve_optNames rest (Declarator.walkScopesElems Resolve.visitor cx kind origin elems s).2
    simp only [Pattern.walkScopes, run_bind, run_pure, Pattern.names, List.map_append, he, hr]
  | .object props rest =>
    have hp := PatternProp.resolve_listNames props s
    have hr := Pattern.resolve_optNames rest (PatternProp.walkScopesList Resolve.visitor cx kind origin props s).2
    simp only [Pattern.walkScopes, run_bind, run_pure, Pattern.names, List.map_append, hp, hr]

theorem Pattern.resolve_optNames (p : Option Pattern) (s : Resolve.State) :
    (Pattern.optNames (Pattern.walkScopesOpt Resolve.visitor cx kind origin p s).1).map Ident.site =
      (Pattern.optNames p).map Ident.site := by
  match p with
  | none => rfl
  | some p => exact Pattern.resolve_names p s

theorem Declarator.resolve_names (d : Declarator) (s : Resolve.State) :
    (d.walkScopesElem Resolve.visitor cx kind origin s).1.names.map Ident.site = d.names.map Ident.site := by
  match d with
  | .mk site target init => exact Pattern.resolve_names target (Expr.walkScopesOpt Resolve.visitor cx init s).2

theorem Declarator.resolve_listNames (ds : List Declarator) (s : Resolve.State) :
    (Declarator.listNames (Declarator.walkScopesElems Resolve.visitor cx kind origin ds s).1).map Ident.site =
      (Declarator.listNames ds).map Ident.site := by
  match ds with
  | [] => rfl
  | d :: ds =>
    have hd := Declarator.resolve_names d s
    have hds := Declarator.resolve_listNames ds (d.walkScopesElem Resolve.visitor cx kind origin s).2
    simp only [Declarator.walkScopesElems, run_bind, run_pure, Declarator.listNames, List.map_append, hd, hds]

theorem PatternProp.resolve_names (p : PatternProp) (s : Resolve.State) :
    (p.walkScopes Resolve.visitor cx kind origin s).1.names.map Ident.site = p.names.map Ident.site := by
  match p with
  | .mk key false shorthand value => exact Declarator.resolve_names value s
  | .mk key true shorthand value => exact Declarator.resolve_names value (key.walkScopes Resolve.visitor cx s).2

theorem PatternProp.resolve_listNames (ps : List PatternProp) (s : Resolve.State) :
    (PatternProp.listNames (PatternProp.walkScopesList Resolve.visitor cx kind origin ps s).1).map Ident.site =
      (PatternProp.listNames ps).map Ident.site := by
  match ps with
  | [] => rfl
  | p :: ps =>
    have hp := PatternProp.resolve_names p s
    have hps := PatternProp.resolve_listNames ps (p.walkScopes Resolve.visitor cx kind origin s).2
    simp only [PatternProp.walkScopesList, run_bind, run_pure, PatternProp.listNames, List.map_append, hp, hps]

end

end

/-- Marks what the site declares as exported. -/
def Hoist.State.exporting (s : Hoist.State) (x : Site) : Hoist.State :=
  match s.decls[x]?.join with
  | some b => { s with bindings := s.bindings.modify b fun b => { b with isExported := true } }
  | none => s

theorem Hoist.exportDeclared_eq (ids : List Ident) (s : Hoist.State) :
    Hoist.exportDeclared ids s = ((), (ids.map Ident.site).foldl Hoist.State.exporting s) := by
  rw [List.foldl_map]
  rfl

/-- Which names are exported is told by their sites. -/
theorem Hoist.exportDeclared_of_sites {ids ids' : List Ident} (h : ids.map Ident.site = ids'.map Ident.site)
    (s : Hoist.State) : Hoist.exportDeclared ids s = Hoist.exportDeclared ids' s := by
  rw [Hoist.exportDeclared_eq, Hoist.exportDeclared_eq, h]

/-! ### The walk that is both -/

/-- The states of both walks at the same place. -/
abbrev Places : Type := Hoist.State × Resolve.State

variable {α β : Type}

/-- Goes through a piece of syntax as the first walk does, and then through what it leaves as the second one does. -/
def both (a : StateM Hoist.State α) (w : α → StateM Resolve.State β) : StateM Places β := fun s =>
  ((w (a s.1).1 s.2).1, (a s.1).2, (w (a s.1).1 s.2).2)

/-- Does at every place what both walks do there. -/
def fused : ScopeVisitor (StateM Places) where
  site _ := both Hoist.fresh pure
  declare inHead id kind origin := both (Hoist.declare inHead id kind origin) Resolve.declare
  refer writing id := both (Hoist.number id) (Resolve.refer writing)
  exportName id := both (Hoist.number id) Resolve.exportName
  exportDeclared ids := both (Hoist.exportDeclared ids) pure
  inScope kind opener act s :=
    let r := act (s.1.entering kind opener,
      { s.2 with entered := s.2.entered + 1, path := (s.2.entered + 1) :: s.2.path })
    (r.1, { r.2.1 with path := s.1.path }, { r.2.2 with path := s.2.path })
  contain c := both (Hoist.visitor.contain c) pure
  called id := both (pure ()) fun _ => Resolve.called id

theorem both_run (a : StateM Hoist.State α) (w : α → StateM Resolve.State β) (s : Places) :
    both a w s = ((w (a s.1).1 s.2).1, (a s.1).2, (w (a s.1).1 s.2).2) := rfl

theorem callOf_fused (e : Expr) : fused.callOf e = both (pure ()) fun _ => Resolve.visitor.callOf e := by
  cases e <;> rfl

theorem hoist_callOf (e : Expr) : Hoist.visitor.callOf e = pure () := by
  cases e <;> rfl

theorem mapM_both {α : Type} (act : α → StateM Hoist.State α) (w : α → StateM Resolve.State α) (xs : List α) :
    xs.mapM (fun x => both (act x) w) = both (xs.mapM act) fun xs => xs.mapM w := by
  induction xs with
  | nil => rfl
  | cons x xs ih =>
    funext s
    simp only [List.mapM_cons, ih, run_bind, run_pure, both_run]

theorem ownName_fused (cx : Context) (isOwn : Bool) (origin : Origin) (name : Option Ident) :
    fused.ownName cx isOwn origin name =
      both (Hoist.visitor.ownName cx isOwn origin name) fun name => Resolve.visitor.ownName cx isOwn origin name := by
  cases name <;> cases isOwn <;> rfl

mutual

theorem Expr.walkScopes_fused (cx : Context) (e : Expr) :
    e.walkScopes fused cx = both (e.walkScopes Hoist.visitor cx) fun x => x.walkScopes Resolve.visitor cx := by
  match e with
  | .hole | .this | .super | .null | .bool _ | .number .. | .string _ | .regExp .. | .ident _ => rfl
  | .template tag _ es =>
    funext s
    simp only [Expr.walkScopes, Expr.walkScopesOpt_fused, Expr.walkScopesList_fused, run_bind, run_pure, both_run]
  | .array es | .seq es =>
    funext s
    simp only [Expr.walkScopes, Expr.walkScopesList_fused, run_bind, run_pure, both_run]
  | .object ps =>
    funext s
    simp only [Expr.walkScopes, Property.walkScopesList_fused, run_bind, run_pure, both_run]
  | .spread e | .unary _ e | .update _ e _ | .await e =>
    funext s
    simp only [Expr.walkScopes, Expr.walkScopes_fused, run_bind, run_pure, both_run]
  | .func f =>
    funext s
    simp only [Expr.walkScopes, Func.walkScopes_fused, run_bind, run_pure, both_run]
  | .arrow params rest body _ =>
    simp only [Expr.walkScopes, Declarator.walkScopesElems_fused, Pattern.walkScopesOpt_fused, Expr.walkScopes_fused]
    rfl
  | .arrowBlock params rest body _ =>
    simp only [Expr.walkScopes, Declarator.walkScopesElems_fused, Pattern.walkScopesOpt_fused,
      Stmt.walkScopesList_fused]
    rfl
  | .cls c =>
    funext s
    simp only [Expr.walkScopes, Class.walkScopes_fused, run_bind, run_pure, both_run]
  | .binary _ l r | .assign _ l r =>
    funext s
    simp only [Expr.walkScopes, Expr.walkScopes_fused, run_bind, run_pure, both_run]
  | .cond test yes no =>
    funext s
    simp only [Expr.walkScopes, Expr.walkScopes_fused, run_bind, run_pure, both_run]
  | .call callee args _ =>
    funext s
    simp only [Expr.walkScopes, Expr.walkScopes_fused, Expr.walkScopesList_fused, callOf_fused, hoist_callOf,
      run_bind, run_pure, both_run]
  | .new callee args =>
    funext s
    simp only [Expr.walkScopes, Expr.walkScopes_fused, Expr.walkScopesList_fused, run_bind, run_pure, both_run]
  | .member object name _ =>
    funext s
    simp only [Expr.walkScopes, Expr.walkScopes_fused, run_bind, run_pure, both_run]
  | .index object key _ =>
    funext s
    simp only [Expr.walkScopes, Expr.walkScopes_fused, run_bind, run_pure, both_run]
  | .yield arg _ =>
    funext s
    simp only [Expr.walkScopes, Expr.walkScopesOpt_fused, run_bind, run_pure, both_run]

theorem Expr.walkScopesOpt_fused (cx : Context) (e : Option Expr) :
    Expr.walkScopesOpt fused cx e =
      both (Expr.walkScopesOpt Hoist.visitor cx e) fun x => Expr.walkScopesOpt Resolve.visitor cx x := by
  match e with
  | none => rfl
  | some e =>
    funext s
    simp only [Expr.walkScopesOpt, Expr.walkScopes_fused, run_bind, run_pure, both_run]

theorem Expr.walkScopesList_fused (cx : Context) (es : List Expr) :
    Expr.walkScopesList fused cx es =
      both (Expr.walkScopesList Hoist.visitor cx es) fun x => Expr.walkScopesList Resolve.visitor cx x := by
  match es with
  | [] => rfl
  | e :: es =>
    funext s
    simp only [Expr.walkScopesList, Expr.walkScopes_fused, Expr.walkScopesList_fused, run_bind, run_pure, both_run]

theorem Property.walkScopes_fused (cx : Context) (p : Property) :
    p.walkScopes fused cx = both (p.walkScopes Hoist.visitor cx) fun x => x.walkScopes Resolve.visitor cx := by
  match p with
  | .short id init =>
    funext s
    simp only [Property.walkScopes, Expr.walkScopesOpt_fused, run_bind, run_pure, both_run]
    rfl
  | .keyed key kind value computed =>
    funext s
    cases computed <;>
    simp only [Property.walkScopes, Expr.walkScopes_fused, run_bind, run_pure, both_run, if_true, if_false,
      Bool.false_eq_true]
  | .spread e =>
    funext s
    simp only [Property.walkScopes, Expr.walkScopes_fused, run_bind, run_pure, both_run]

theorem Property.walkScopesList_fused (cx : Context) (ps : List Property) :
    Property.walkScopesList fused cx ps =
      both (Property.walkScopesList Hoist.visitor cx ps) fun x => Property.walkScopesList Resolve.visitor cx x := by
  match ps with
  | [] => rfl
  | p :: ps =>
    funext s
    simp only [Property.walkScopesList, Property.walkScopes_fused, Property.walkScopesList_fused, run_bind, run_pure,
      both_run]

theorem Func.walkScopes_fused (cx : Context) (isOwn : Bool) (f : Func) :
    f.walkScopes fused cx isOwn =
      both (f.walkScopes Hoist.visitor cx isOwn) fun x => x.walkScopes Resolve.visitor cx isOwn := by
  match f with
  | .mk name params rest body _ _ =>
    simp only [Func.walkScopes, ownName_fused, Declarator.walkScopesElems_fused, Pattern.walkScopesOpt_fused,
      Stmt.walkScopesList_fused]
    rfl

theorem Class.walkScopes_fused (cx : Context) (isOwn : Bool) (c : Class) :
    c.walkScopes fused cx isOwn =
      both (c.walkScopes Hoist.visitor cx isOwn) fun x => x.walkScopes Resolve.visitor cx isOwn := by
  match c with
  | .mk name superclass body decorators =>
    simp only [Class.walkScopes, ownName_fused, Expr.walkScopesList_fused, Expr.walkScopesOpt_fused,
      ClassElement.walkScopesList_fused]
    rfl

theorem ClassElement.walkScopes_fused (cx : Context) (e : ClassElement) :
    e.walkScopes fused cx = both (e.walkScopes Hoist.visitor cx) fun x => x.walkScopes Resolve.visitor cx := by
  match e with
  | .field key init computed _ =>
    funext s
    cases computed <;>
    simp only [ClassElement.walkScopes, Expr.walkScopes_fused, Expr.walkScopesOpt_fused, run_bind, run_pure, both_run,
      if_true, if_false, Bool.false_eq_true]
  | .method key _ body computed _ =>
    funext s
    cases computed <;>
    simp only [ClassElement.walkScopes, Expr.walkScopes_fused, Func.walkScopes_fused, run_bind, run_pure, both_run,
      if_true, if_false, Bool.false_eq_true]
  | .block body =>
    simp only [ClassElement.walkScopes, Stmt.walkScopesList_fused]
    rfl

theorem ClassElement.walkScopesList_fused (cx : Context) (es : List ClassElement) :
    ClassElement.walkScopesList fused cx es =
      both (ClassElement.walkScopesList Hoist.visitor cx es)
        fun x => ClassElement.walkScopesList Resolve.visitor cx x := by
  match es with
  | [] => rfl
  | e :: es =>
    funext s
    simp only [ClassElement.walkScopesList, ClassElement.walkScopes_fused, ClassElement.walkScopesList_fused, run_bind,
      run_pure, both_run]

theorem Pattern.walkScopes_fused (cx : Context) (kind : BindingKind) (origin : Origin) (p : Pattern) :
    p.walkScopes fused cx kind origin =
      both (p.walkScopes Hoist.visitor cx kind origin) fun x => x.walkScopes Resolve.visitor cx kind origin := by
  match p with
  | .hole | .ident _ => rfl
  | .array elems rest =>
    funext s
    simp only [Pattern.walkScopes, Declarator.walkScopesElems_fused, Pattern.walkScopesOpt_fused, run_bind, run_pure,
      both_run]
  | .object props rest =>
    funext s
    simp only [Pattern.walkScopes, PatternProp.walkScopesList_fused, Pattern.walkScopesOpt_fused, run_bind, run_pure,
      both_run]

theorem Pattern.walkScopesOpt_fused (cx : Context) (kind : BindingKind) (origin : Origin) (p : Option Pattern) :
    Pattern.walkScopesOpt fused cx kind origin p =
      both (Pattern.walkScopesOpt Hoist.visitor cx kind origin p)
        fun x => Pattern.walkScopesOpt Resolve.visitor cx kind origin x := by
  match p with
  | none => rfl
  | some p =>
    funext s
    simp only [Pattern.walkScopesOpt, Pattern.walkScopes_fused, run_bind, run_pure, both_run]

theorem Declarator.walkScopesElem_fused (cx : Context) (kind : BindingKind) (origin : Origin) (d : Declarator) :
    d.walkScopesElem fused cx kind origin =
      both (d.walkScopesElem Hoist.visitor cx kind origin)
        fun x => x.walkScopesElem Resolve.visitor cx kind origin := by
  match d with
  | .mk site target init =>
    funext s
    simp only [Declarator.walkScopesElem, Expr.walkScopesOpt_fused, Pattern.walkScopes_fused, run_bind, run_pure,
      both_run]
    rfl

theorem Declarator.walkScopesElems_fused (cx : Context) (kind : BindingKind) (origin : Origin) (ds : List Declarator) :
    Declarator.walkScopesElems fused cx kind origin ds =
      both (Declarator.walkScopesElems Hoist.visitor cx kind origin ds)
        fun x => Declarator.walkScopesElems Resolve.visitor cx kind origin x := by
  match ds with
  | [] => rfl
  | d :: ds =>
    funext s
    simp only [Declarator.walkScopesElems, Declarator.walkScopesElem_fused, Declarator.walkScopesElems_fused, run_bind,
      run_pure, both_run]

theorem PatternProp.walkScopes_fused (cx : Context) (kind : BindingKind) (origin : Origin) (p : PatternProp) :
    p.walkScopes fused cx kind origin =
      both (p.walkScopes Hoist.visitor cx kind origin) fun x => x.walkScopes Resolve.visitor cx kind origin := by
  match p with
  | .mk key computed _ value =>
    funext s
    cases computed <;>
    simp only [PatternProp.walkScopes, Expr.walkScopes_fused, Declarator.walkScopesElem_fused, run_bind, run_pure,
      both_run, if_true, if_false, Bool.false_eq_true]

theorem PatternProp.walkScopesList_fused (cx : Context) (kind : BindingKind) (origin : Origin) (ps : List PatternProp) :
    PatternProp.walkScopesList fused cx kind origin ps =
      both (PatternProp.walkScopesList Hoist.visitor cx kind origin ps)
        fun x => PatternProp.walkScopesList Resolve.visitor cx kind origin x := by
  match ps with
  | [] => rfl
  | p :: ps =>
    funext s
    simp only [PatternProp.walkScopesList, PatternProp.walkScopes_fused, PatternProp.walkScopesList_fused, run_bind,
      run_pure, both_run]

theorem Declarator.walkScopesDecls_fused (cx : Context) (kind : DeclKind) (isExported : Bool) (ds : List Declarator) :
    Declarator.walkScopesDecls fused cx kind isExported ds =
      both (Declarator.walkScopesDecls Hoist.visitor cx kind isExported ds)
        fun x => Declarator.walkScopesDecls Resolve.visitor cx kind isExported x := by
  match ds with
  | [] => rfl
  | .mk site target init :: ds =>
    funext s
    cases isExported with
    | false =>
      simp only [Declarator.walkScopesDecls, Expr.walkScopesOpt_fused, Pattern.walkScopes_fused,
        Declarator.walkScopesDecls_fused, run_bind, run_pure, both_run, if_false, Bool.false_eq_true]
      rfl
    | true =>
      simp only [Declarator.walkScopesDecls, Expr.walkScopesOpt_fused, Pattern.walkScopes_fused,
        Declarator.walkScopesDecls_fused, run_bind, run_pure, both_run, if_true]
      have hn (t : Pattern) (site : Site) (r : Resolve.State) := Hoist.exportDeclared_of_sites
        (Pattern.resolve_names cx kind.bindingKind (.declarator site) t r)
      simp only [fused, both_run, run_pure, hn]
      rfl

theorem Stmt.walkScopes_fused (cx : Context) (container : Option Container) (t : Stmt) :
    t.walkScopes fused cx container =
      both (t.walkScopes Hoist.visitor cx container) fun x => x.walkScopes Resolve.visitor cx container := by
  match t with
  | .empty | .debugger | .brk _ | .cont _ | .exportAll .. => rfl
  | .block body =>
    simp only [Stmt.walkScopes, Stmt.walkScopesList_fused]
    rfl
  | .expr e | .throw e | .exportDefaultExpr e =>
    funext s
    simp only [Stmt.walkScopes, Expr.walkScopes_fused, run_bind, run_pure, both_run]
  | .cond test yes no =>
    funext s
    simp only [Stmt.walkScopes, Expr.walkScopes_fused, Stmt.walkScopes_fused, Stmt.walkScopesOpt_fused, run_bind,
      run_pure, both_run]
  | .ret arg =>
    funext s
    simp only [Stmt.walkScopes, Expr.walkScopesOpt_fused, run_bind, run_pure, both_run]
  | .labelled _ body | .exportDecl body | .exportDefault body =>
    funext s
    simp only [Stmt.walkScopes, Stmt.walkScopes_fused, run_bind, run_pure, both_run]
  | .while test body | .doWhile body test =>
    simp only [Stmt.walkScopes, Expr.walkScopes_fused, Stmt.walkScopes_fused]
    rfl
  | .for head test update body =>
    simp only [Stmt.walkScopes, ForHead.walkScopes_fused, Expr.walkScopesOpt_fused, Stmt.walkScopes_fused]
    rfl
  | .forIn head source body | .forOf head source body _ =>
    simp only [Stmt.walkScopes, ForHead.walkScopes_fused, Expr.walkScopes_fused, Stmt.walkScopes_fused]
    rfl
  | .switch subject cases =>
    simp only [Stmt.walkScopes, Expr.walkScopes_fused, Case.walkScopesList_fused]
    rfl
  | .tryCatch body param handler finalizer =>
    cases param <;>
    simp only [Stmt.walkScopes, Stmt.walkScopesList_fused, Pattern.walkScopesOpt_fused, Stmt.walkScopesBlock_fused,
      Option.isSome] <;>
    rfl
  | .tryFinally body finalizer =>
    simp only [Stmt.walkScopes, Stmt.walkScopesList_fused]
    rfl
  | .decl kind list =>
    funext s
    simp only [Stmt.walkScopes, Declarator.walkScopesDecls_fused, run_bind, run_pure, both_run]
  | .func f =>
    cases f with
    | mk name params rest body async generator =>
      cases name with
      | none =>
        simp only [Stmt.walkScopes, Func.name, Func.walkScopes_fused, Option.mapM_none]
        rfl
      | some id =>
        simp only [Stmt.walkScopes, Func.name, Func.walkScopes_fused, Option.mapM_some]
        rfl
  | .cls c =>
    cases c with
    | mk name superclass body decorators =>
      cases name with
      | none =>
        simp only [Stmt.walkScopes, Class.name, Class.walkScopes_fused, Option.mapM_none]
        rfl
      | some id =>
        simp only [Stmt.walkScopes, Class.name, Class.walkScopes_fused, Option.mapM_some]
        rfl
  | .importDecl specs _ =>
    have hs := mapM_both (fun s : ImportSpec => do
        Hoist.visitor.contain (some .importDecl)
        return { s with binder := ← Hoist.declare cx.inHead s.binder .module fun _ => .importDecl })
      (fun s => do return { s with binder := ← Resolve.declare s.binder }) specs
    exact congrArg (fun act => act >>= fun specs => pure (Stmt.importDecl specs _)) hs
  | .exportNames specs (some source) => rfl
  | .exportNames specs none =>
    have hs := mapM_both (fun s : ExportSpec => do return { s with source := ← Hoist.number s.source })
      (fun s => do return { s with source := ← Resolve.exportName s.source }) specs
    exact congrArg (fun act => act >>= fun specs => pure (Stmt.exportNames specs none)) hs

theorem Stmt.walkScopesOpt_fused (cx : Context) (t : Option Stmt) :
    Stmt.walkScopesOpt fused cx t =
      both (Stmt.walkScopesOpt Hoist.visitor cx t) fun x => Stmt.walkScopesOpt Resolve.visitor cx x := by
  match t with
  | none => rfl
  | some t =>
    funext s
    simp only [Stmt.walkScopesOpt, Stmt.walkScopes_fused, run_bind, run_pure, both_run]

theorem Stmt.walkScopesList_fused (cx : Context) (ts : List Stmt) :
    Stmt.walkScopesList fused cx ts =
      both (Stmt.walkScopesList Hoist.visitor cx ts) fun x => Stmt.walkScopesList Resolve.visitor cx x := by
  match ts with
  | [] => rfl
  | t :: ts =>
    funext s
    simp only [Stmt.walkScopesList, Stmt.walkScopes_fused, Stmt.walkScopesList_fused, run_bind, run_pure, both_run]

theorem Stmt.walkScopesBlock_fused (cx : Context) (ts : Option (List Stmt)) :
    Stmt.walkScopesBlock fused cx ts =
      both (Stmt.walkScopesBlock Hoist.visitor cx ts) fun x => Stmt.walkScopesBlock Resolve.visitor cx x := by
  match ts with
  | none => rfl
  | some ts =>
    simp only [Stmt.walkScopesBlock, Stmt.walkScopesList_fused]
    rfl

theorem ForHead.walkScopes_fused (cx : Context) (head : ForHead) :
    head.walkScopes fused cx = both (head.walkScopes Hoist.visitor cx) fun x => x.walkScopes Resolve.visitor cx := by
  match head with
  | .empty => rfl
  | .decl kind list =>
    funext s
    simp only [ForHead.walkScopes, Declarator.walkScopesDecls_fused, run_bind, run_pure, both_run]
  | .expr e =>
    funext s
    simp only [ForHead.walkScopes, Expr.walkScopes_fused, run_bind, run_pure, both_run]

theorem Case.walkScopes_fused (cx : Context) (c : Case) :
    c.walkScopes fused cx = both (c.walkScopes Hoist.visitor cx) fun x => x.walkScopes Resolve.visitor cx := by
  match c with
  | .mk test body =>
    funext s
    simp only [Case.walkScopes, Expr.walkScopesOpt_fused, Stmt.walkScopesList_fused, run_bind, run_pure, both_run]

theorem Case.walkScopesList_fused (cx : Context) (cs : List Case) :
    Case.walkScopesList fused cx cs =
      both (Case.walkScopesList Hoist.visitor cx cs) fun x => Case.walkScopesList Resolve.visitor cx x := by
  match cs with
  | [] => rfl
  | c :: cs =>
    funext s
    simp only [Case.walkScopesList, Case.walkScopes_fused, Case.walkScopesList_fused, run_bind, run_pure, both_run]

end

end Deadwood
