import Deadwood.Proofs.Head
import Deadwood.Scope.Walk

/-!
# What a walk through the scopes does to the result of a fold

`Walks` lists what has to be shown of a property of a walk through the scopes of a program.  It is said of
the result of one fold before the walk and of another one after it, of the states it starts and ends in,
and of the origin that the names declared by the piece itself get, if there is one.
-/

namespace Deadwood

open ScopeWalk

variable {σ α β : Type}

/-- Whether a statement exports what another module declares. -/
def Stmt.isForeign : Stmt → Bool
  | .exportNames _ (some _) => true
  | _ => false

/-- Whether the syntax gives the name its value where it stands, and not from the start. -/
def Origin.isRun : Origin → Bool
  | .declarator _ | .cls _ => true
  | _ => false

/-- Names of the kind may be declared with the origin: none that is hoisted waits for its declaration. -/
def BindingKind.Suits (kind : BindingKind) (origin : Origin) : Prop :=
  origin.isRun = true → kind.isHoisted = false

theorem BindingKind.suits_literal (kind : BindingKind) {origin : Origin} (h : origin.site? = none) :
    kind.Suits origin := by
  intro hr
  cases origin with
  | declarator _ | cls _ => cases h
  | _ => cases hr

theorem DeclKind.suits_declarator (kind : DeclKind) (site : Site) :
    kind.bindingKind.Suits (.declarator site) := by
  intro _
  cases kind <;> rfl

/-- Names of the kind may be declared in a pattern with the origin, which is a declarator if it has a site. -/
def BindingKind.Takes (kind : BindingKind) (origin : Origin) : Prop :=
  kind.Suits origin ∧ (origin.site? = none ∨ ∃ σ, origin = .declarator σ)

theorem BindingKind.takes_literal (kind : BindingKind) {origin : Origin} (h : origin.site? = none) :
    kind.Takes origin :=
  ⟨kind.suits_literal h, .inl h⟩

theorem DeclKind.takes_declarator (kind : DeclKind) (site : Site) : kind.bindingKind.Takes (.declarator site) :=
  ⟨kind.suits_declarator site, .inr ⟨site, rfl⟩⟩

/-- What a piece of syntax may declare in the scope around it. -/
inductive Declares
  | nothing
  /-- Names with declarations of their own, in a statement inside of `container`. -/
  | statements (container : Option Container)
  /-- Names that have the origin. -/
  | names (origin : Origin)

def Declares.origin? : Declares → Option Origin
  | names origin => some origin
  | _ => none

/-- Whether the statement is an export. -/
def Declares.isExport : Declares → Bool
  | statements container => container.any Container.isExport
  | _ => false

/-- A scope of statements inside of `c` stands where nothing is declared, or where such statements do. -/
def Declares.Around (i : Declares) (c : Option Container) : Prop := i = .nothing ∨ i = .statements c

theorem Declares.Around.origin? {i : Declares} {c : Option Container} (h : i.Around c) : i.origin? = none := by
  rcases h with rfl | rfl <;> rfl

/-- What the parts of a statement may declare in the scope around the statement, which is inside of `c`. -/
def Stmt.declares (c : Option Container) : Stmt → Declares
  | .block _ | .switch .. | .tryCatch .. | .tryFinally .. => .nothing
  | .decl .. | .func _ | .cls _ => .statements c
  | .exportDecl _ => .statements (some .exportDecl)
  | .exportDefault _ => .statements (some .exportDefault)
  | _ => .statements none

theorem Stmt.declares_origin? (c : Option Container) (x : Stmt) : (x.declares c).origin? = none := by
  cases x <;> rfl

/-- `V i a s b t` says that a piece of syntax whose fold is `a` has become one whose fold is `b`, and the
state `s` has become `t`; in the scope around it, the piece declares what `i` says. -/
structure Walks (v : ScopeVisitor (StateM σ)) (F : Fold α) (G : Fold β)
    (V : Declares → α → σ → β → σ → Prop) : Prop where
  empty : ∀ {i s}, V i F.empty s G.empty s
  append : ∀ {i a b a' b' s t u}, V i a s a' t → V i b t b' u →
    V i (F.append a b) s (G.append a' b') u
  swap : ∀ {i a b a' b' s t u}, V i b s b' t → V i a t a' u →
    V i (F.append a b) s (G.append a' b') u
  assoc : ∀ {i a b c a' b' c' s t}, V i (F.append (F.append a b) c) s (G.append (G.append a' b') c') t →
    V i (F.append a (F.append b c)) s (G.append a' (G.append b' c')) t
  weaken : ∀ {i a b s t}, i.isExport = false → V .nothing a s b t → V i a s b t
  literal : ∀ {o a b s t}, o.site? = none → V (.names o) a s b t → V (.statements none) a s b t
  hole : ∀ {i s}, V i F.hole s G.hole s
  label : ∀ {i s} id, V i (F.ident .label id) s (G.ident .label id) s
  propertyName : ∀ {i s} id, V i (F.ident .property id) s (G.ident .property id) s
  refer : ∀ w id s, V .nothing (F.ident .reference id) s
    (G.ident .reference (v.refer w id s).1) (v.refer w id s).2
  declare : ∀ inHead id kind origin s, kind.Takes origin → V (.names origin) (F.ident (.binding kind) id) s
    (G.ident (.binding kind) (v.declare inHead id kind (fun _ => origin) s).1)
    (v.declare inHead id kind (fun _ => origin) s).2
  exportName : ∀ id s, V .nothing (F.ident .exported id) s
    (G.ident .exported (v.exportName id s).1) (v.exportName id s).2
  exportDeclared : ∀ {i a b s t} ids, V i a s b t → V i a s b (v.exportDeclared ids t).2
  contain : ∀ {i a b s t} c, V i a (v.contain c s).2 b t → V i a s b t
  called : ∀ {i a b s t} id, V i a s b t → V i a s b (v.called id t).2
  inScope : ∀ {γ : Type} {i c a}, i.Around c → ∀ (act : StateM σ γ) (k : γ → β) (kind opener),
    (∀ s, V (.statements c) a s (k (act s).1) (act s).2) → ∀ s,
    V i a s (k (v.inScope kind opener act s).1) (v.inScope kind opener act s).2
  /-- The second of three pieces comes before the scope around the other two. -/
  straddle : ∀ {γ : Type} {a b c b' r} (act : StateM σ γ) (k l : γ → β) (kind opener),
    (∀ s, ∃ t, V (.statements none) a s (k (act s).1) t ∧ V (.statements none) c t (l (act s).1) (act s).2) → ∀ {s},
    V .nothing b r b' s →
    V .nothing (F.append a (F.append b c)) r
      (G.append (k (v.inScope kind opener act s).1) (G.append b' (l (v.inScope kind opener act s).1)))
      (v.inScope kind opener act s).2
  scope_map : ∀ {γ δ : Type} (f : γ → δ) (act : StateM σ γ) (kind opener),
    v.inScope kind opener (f <$> act) = f <$> v.inScope kind opener act
  expr : ∀ {e e' a b s t}, e.form = e'.form → V .nothing a s b t → V .nothing (F.expr e a) s (G.expr e' b) t
  stmt : ∀ {c x x' a b s t}, x.form = x'.form → x.isForeign = false → V (x.declares c) a s b t →
    V (.statements c) (F.stmt x a) s (G.stmt x' b) t
  /-- The names in an export of what another module declares are left alone. -/
  foreign : ∀ {i} specs source s,
    V i (F.stmt (.exportNames specs (some source)) (F.all (fun e => F.ident .exported e.source) specs)) s
      (G.stmt (.exportNames specs (some source)) (G.all (fun e => G.ident .exported e.source) specs)) s
  property : ∀ {p p' a b s t}, p.Becomes p' → V .nothing a s b t →
    V .nothing (F.property p a) s (G.property p' b) t
  element : ∀ {o a b site target target' init init' s t}, target.form = target'.form →
    init.isSome = init'.isSome → V (.names o) a (v.site site s).2 b t →
    V (.names o) (F.element (.mk site target init) a) s
      (G.element (.mk (v.site site s).1 target' init') b) t
  /-- The initializer of a declarator comes before its names. -/
  declarator : ∀ {kind site target target' init init' s t u c}, target.form = target'.form →
    init.isSome = init'.isSome →
    V .nothing (Expr.foldOpt F init) (v.site site s).2 (Expr.foldOpt G init') t →
    V (.names (.declarator (v.site site s).1)) (target.fold F kind) t (target'.fold G kind) u →
    V (.statements c) ((Declarator.mk site target init).fold F kind) s
      ((Declarator.mk (v.site site s).1 target' init').fold G kind) u
  func : ∀ {f f' a b s t c}, f.name = none → f'.name = none → V .nothing a s b t →
    V (.statements c) (F.funcDecl f (F.append F.empty a)) s (G.funcDecl f' (G.append G.empty b)) t
  funcNamed : ∀ inHead c {id f f' a b s t}, f.name = some id →
    f'.name = some (v.declare inHead id .func .func (v.contain c s).2).1 →
    V .nothing a (v.declare inHead id .func .func (v.contain c s).2).2 b t →
    V (.statements c) (F.funcDecl f (F.append (F.ident (.binding .func) id) a)) s
      (G.funcDecl f' (G.append (G.ident (.binding .func) (v.declare inHead id .func .func (v.contain c s).2).1) b)) t
  cls : ∀ {i c c' a b a' b' s t u}, c.form = c'.form → c.name = none → c'.name = none → V .nothing a s a' u →
    V .nothing b u b' t →
    V (.statements i) (F.clsDecl c (F.append a (F.append F.empty b))) s
      (G.clsDecl c' (G.append a' (G.append G.empty b'))) t
  clsNamed : ∀ inHead container {id c c' a b a' b' s t u}, c.form = c'.form → c.name = some id →
    c'.name = some (v.declare inHead id .cls .cls (v.contain container t).2).1 →
    V .nothing a s a' u → V .nothing b u b' t →
    V (.statements container) (F.clsDecl c (F.append a (F.append (F.ident (.binding .cls) id) b))) s
      (G.clsDecl c' (G.append a' (G.append
        (G.ident (.binding .cls) (v.declare inHead id .cls .cls (v.contain container t).2).1) b')))
      (v.declare inHead id .cls .cls (v.contain container t).2).2

variable {v : ScopeVisitor (StateM σ)} {F : Fold α} {G : Fold β}
  {V : Declares → α → σ → β → σ → Prop}

namespace Walks

theorem optLabel (h : Walks v F G V) {i : Declares} (id : Option Ident) (s : σ) :
    V i (F.optIdent .label id) s (G.optIdent .label id) s := by
  cases id with
  | none => exact h.empty
  | some id => exact h.label id

theorem ownName (h : Walks v F G V) (cx : Context) {origin : Origin} (ho : origin.site? = none)
    (id : Option Ident) (s : σ) :
    V (.statements none) (F.optIdent (.binding .own) id) s
      (G.optIdent (.binding .own) (v.ownName cx true origin id s).1)
      (v.ownName cx true origin id s).2 := by
  cases id with
  | none => exact h.empty
  | some id => exact h.literal ho (h.declare cx.inHead id .own origin s (BindingKind.takes_literal _ ho))

theorem callOf (h : Walks v F G V) {i : Declares} {a : α} {b : β} {s t : σ} (e : Expr)
    (he : V i a s b t) : V i a s b (v.callOf e t).2 := by
  cases e with
  | ident id => exact h.called id he
  | _ => exact he

theorem imports (h : Walks v F G V) (cx : Context) (specs : List ImportSpec) (s : σ) :
    let act : List ImportSpec → StateM σ (List ImportSpec) := List.mapM fun i => do
      v.contain (some .importDecl)
      return { i with binder := ← v.declare cx.inHead i.binder .module fun _ => .importDecl }
    V (.statements none) (F.all (fun i : ImportSpec => F.ident (.binding .module) i.binder) specs) s
      (G.all (fun i : ImportSpec => G.ident (.binding .module) i.binder) (act specs s).1)
      (act specs s).2 := by
  intro act
  induction specs generalizing s with
  | nil => exact h.empty
  | cons i specs ih =>
    simp only [act, List.mapM_cons]
    exact h.append (h.contain _ (h.literal rfl (h.declare cx.inHead i.binder .module _ _
      (BindingKind.takes_literal _ rfl)))) (ih _)

theorem exports (h : Walks v F G V) (specs : List ExportSpec) (s : σ) :
    let act : List ExportSpec → StateM σ (List ExportSpec) := List.mapM fun e => do
      return { e with source := ← v.exportName e.source }
    V (.statements none) (F.all (fun e : ExportSpec => F.ident .exported e.source) specs) s
      (G.all (fun e : ExportSpec => G.ident .exported e.source) (act specs s).1)
      (act specs s).2 := by
  intro act
  induction specs generalizing s with
  | nil => exact h.empty
  | cons e specs ih =>
    simp only [act, List.mapM_cons]
    exact h.append (h.weaken rfl (h.exportName e.source s)) (ih _)

end Walks

theorem Pattern.walkScopes_form (v : ScopeVisitor (StateM σ)) (cx : Context) (kind : BindingKind)
    (origin : Origin) (p : Pattern) (s : σ) :
    (p.walkScopes v cx kind origin s).1.form = p.form := by
  cases p <;> rfl

/-- What the results of a walk have in common they have inside of a scope. -/
theorem Walks.inScope_eq (h : Walks v F G V) {γ δ : Type} {f : γ → δ} {d : δ} {act : StateM σ γ}
    (hact : ∀ s, f (act s).1 = d) (kind : ScopeKind) (opener : Opener) (s : σ) :
    f (v.inScope kind opener act s).1 = d := by
  have he : f <$> act = (fun _ => d) <$> act := funext fun s => Prod.ext (hact s) rfl
  have hs : f <$> v.inScope kind opener act = (fun _ => d) <$> v.inScope kind opener act := by
    rw [← h.scope_map, he, h.scope_map]
  exact congrArg Prod.fst (congrFun hs s)

theorem ClassElement.walkScopesList_head (v : ScopeVisitor (StateM σ)) (cx : Context)
    (es : List ClassElement) (s : σ) :
    (ClassElement.walkScopesList v cx es s).1.map ClassElement.head = es.map ClassElement.head := by
  induction es generalizing s with
  | nil => rfl
  | cons e es ih =>
    refine List.cons_eq_cons.2 ⟨?_, ih _⟩
    cases e with
    | field key init computed => cases computed <;> rfl
    | method key kind body computed => cases computed <;> rfl
    | block body => rfl

theorem Class.walkScopes_form (h : Walks v F G V) (cx : Context) (isOwn : Bool) (c : Class) (s : σ) :
    (c.walkScopes v cx isOwn s).1.form = c.form := by
  cases c with
  | mk name superclass body decorators =>
    refine h.inScope_eq (fun s => ?_) _ _ _
    exact congrArg (Class.mk none none · []) (ClassElement.walkScopesList_head v cx.read body _)

theorem Class.form_withName (name : Option Ident) (c : Class) : (c.withName name).form = c.form := by
  cases c
  rfl

/-- What is collected from a function without its name. -/
def Func.inside (F : Fold α) : Func → α
  | .mk _ params rest body _ _ =>
    F.append (Declarator.foldElems F .param params)
      (F.append (Pattern.foldOpt F .param rest) (Stmt.foldList F body))

@[simp] theorem Func.withName_name (name : Option Ident) (f : Func) : (f.withName name).name = name := by
  cases f
  rfl

theorem Func.withName_self (f : Func) : f.withName f.name = f := by
  cases f
  rfl

@[simp] theorem Class.withName_name (name : Option Ident) (c : Class) :
    (c.withName name).name = name := by
  cases c
  rfl

/-- What is collected from the decorators of a class. -/
def Class.before (F : Fold α) (c : Class) : α := Expr.foldList F c.decorators

/-- What is collected from a class after its name. -/
def Class.after (F : Fold α) (c : Class) : α :=
  F.append (Expr.foldOpt F c.superclass) (ClassElement.foldList F c.body)

theorem Class.fold_withName (F : Fold α) (kind : BindingKind) (name : Option Ident) (c : Class) :
    (c.withName name).fold F kind =
      F.append (c.before F) (F.append (F.optIdent (.binding kind) name) (c.after F)) := by
  cases c
  rfl

theorem Class.withName_self (c : Class) : c.withName c.name = c := by
  cases c
  rfl

theorem Func.fold_withName (F : Fold α) (kind : BindingKind) (name : Option Ident) (f : Func) :
    (f.withName name).fold F kind = F.append (F.optIdent (.binding kind) name) (f.inside F) := by
  cases f
  rfl

mutual

theorem Expr.walkScopes_walks (h : Walks v F G V) (cx : Context) (e : Expr) (s : σ) :
    V .nothing (e.fold F) s ((e.walkScopes v cx s).1.fold G) (e.walkScopes v cx s).2 := by
  match e with
  | .hole | .this | .super | .null | .bool _ | .number .. | .string _ | .regExp .. =>
    exact h.expr rfl h.empty
  | .ident id => exact h.expr rfl (h.refer _ id s)
  | .template tag _ es =>
    refine h.expr ?_ (h.append (Expr.walkScopesOpt_walks h cx tag s)
      (Expr.walkScopesList_walks h cx es _))
    cases tag <;> rfl
  | .array es => exact h.expr rfl (Expr.walkScopesList_walks h cx es s)
  | .object ps => exact h.expr rfl (Property.walkScopesList_walks h cx ps s)
  | .spread e => exact h.expr rfl (Expr.walkScopes_walks h cx e s)
  | .func f => exact h.expr rfl (Func.walkScopes_own h cx f s)
  | .arrow params rest body async =>
    have hin := h.inScope (.inl rfl) (do
        v.contain none
        let params ← Declarator.walkScopesElems v cx.read .param .arrowLiteral params
        let rest ← Pattern.walkScopesOpt v cx.read .param .arrowLiteral rest
        return (params, rest, ← body.walkScopes v cx.read))
      (fun r => G.append (Declarator.foldElems G .param r.1) (G.append (Pattern.foldOpt G .param r.2.1) (r.2.2.fold G)))
      .function .arrow (fun s => h.contain none
        (h.append (h.literal rfl (Declarator.walkScopesElems_walks h cx.read .param .arrowLiteral
          (BindingKind.takes_literal _ rfl) params _))
          (h.append (h.literal rfl (Pattern.walkScopesOpt_walks h cx.read .param .arrowLiteral
            (BindingKind.takes_literal _ rfl) rest _))
            (h.weaken rfl (Expr.walkScopes_walks h cx.read body _))))) s
    have he : (Expr.arrow params rest body async).walkScopes v cx =
        v.inScope .function .arrow ((fun r : List Declarator × Option Pattern × Expr =>
          Expr.arrow r.1 r.2.1 r.2.2 async) <$> (do
            v.contain none
            let params ← Declarator.walkScopesElems v cx.read .param .arrowLiteral params
            let rest ← Pattern.walkScopesOpt v cx.read .param .arrowLiteral rest
            return (params, rest, ← body.walkScopes v cx.read))) := rfl
    rw [he, h.scope_map]
    exact h.expr rfl hin
  | .arrowBlock params rest body async =>
    have hin := h.inScope (.inl rfl) (do
        v.contain none
        let params ← Declarator.walkScopesElems v cx.read .param .arrowLiteral params
        let rest ← Pattern.walkScopesOpt v cx.read .param .arrowLiteral rest
        return (params, rest, ← Stmt.walkScopesList v cx.read body))
      (fun r => G.append (Declarator.foldElems G .param r.1)
        (G.append (Pattern.foldOpt G .param r.2.1) (Stmt.foldList G r.2.2)))
      .function .arrow (fun s => h.contain none
        (h.append (h.literal rfl (Declarator.walkScopesElems_walks h cx.read .param .arrowLiteral
          (BindingKind.takes_literal _ rfl) params _))
          (h.append (h.literal rfl (Pattern.walkScopesOpt_walks h cx.read .param .arrowLiteral
            (BindingKind.takes_literal _ rfl) rest _))
            (Stmt.walkScopesList_walks h cx.read body _)))) s
    have he : (Expr.arrowBlock params rest body async).walkScopes v cx =
        v.inScope .function .arrow ((fun r : List Declarator × Option Pattern × List Stmt =>
          Expr.arrowBlock r.1 r.2.1 r.2.2 async) <$> (do
            v.contain none
            let params ← Declarator.walkScopesElems v cx.read .param .arrowLiteral params
            let rest ← Pattern.walkScopesOpt v cx.read .param .arrowLiteral rest
            return (params, rest, ← Stmt.walkScopesList v cx.read body))) := rfl
    rw [he, h.scope_map]
    exact h.expr rfl hin
  | .cls c => exact h.expr (congrArg Expr.cls (Class.walkScopes_form h cx true c s).symm) (Class.walkScopes_own h cx c s)
  | .unary _ e => exact h.expr rfl (Expr.walkScopes_walks h cx e s)
  | .update _ e _ => exact h.expr rfl (Expr.walkScopes_walks h _ e s)
  | .binary _ l r =>
    exact h.expr rfl (h.append (Expr.walkScopes_walks h cx l s) (Expr.walkScopes_walks h cx r _))
  | .assign _ l r =>
    exact h.expr rfl (h.append (Expr.walkScopes_walks h _ l s) (Expr.walkScopes_walks h _ r _))
  | .cond test yes no =>
    exact h.expr rfl (h.append (Expr.walkScopes_walks h cx test s)
      (h.append (Expr.walkScopes_walks h cx yes _) (Expr.walkScopes_walks h cx no _)))
  | .seq es => exact h.expr rfl (Expr.walkScopesList_walks h cx es s)
  | .call callee args _ =>
    exact h.callOf _ (h.expr (by rfl)
      (h.append (Expr.walkScopes_walks h _ callee s) (Expr.walkScopesList_walks h _ args _)))
  | .new callee args =>
    exact h.expr rfl
      (h.append (Expr.walkScopes_walks h cx callee s) (Expr.walkScopesList_walks h cx args _))
  | .member object name _ =>
    exact h.expr rfl (h.append (Expr.walkScopes_walks h _ object s) (h.propertyName name))
  | .index object key _ =>
    exact h.expr rfl
      (h.append (Expr.walkScopes_walks h _ object s) (Expr.walkScopes_walks h _ key _))
  | .await e => exact h.expr rfl (Expr.walkScopes_walks h cx e s)
  | .yield arg _ =>
    refine h.expr ?_ (Expr.walkScopesOpt_walks h cx arg s)
    cases arg <;> rfl

theorem Expr.walkScopesOpt_walks (h : Walks v F G V) (cx : Context) (e : Option Expr) (s : σ) :
    V .nothing (Expr.foldOpt F e) s (Expr.foldOpt G (Expr.walkScopesOpt v cx e s).1)
      (Expr.walkScopesOpt v cx e s).2 := by
  match e with
  | none => exact h.empty
  | some e => exact Expr.walkScopes_walks h cx e s

theorem Expr.walkScopesList_walks (h : Walks v F G V) (cx : Context) (es : List Expr) (s : σ) :
    V .nothing (Expr.foldList F es) s (Expr.foldList G (Expr.walkScopesList v cx es s).1)
      (Expr.walkScopesList v cx es s).2 := by
  match es with
  | [] => exact h.empty
  | e :: es =>
    exact h.append (Expr.walkScopes_walks h cx e s) (Expr.walkScopesList_walks h cx es _)

theorem Property.walkScopes_walks (h : Walks v F G V) (cx : Context) (p : Property) (s : σ) :
    V .nothing (p.fold F) s ((p.walkScopes v cx s).1.fold G) (p.walkScopes v cx s).2 := by
  match p with
  | .short id init =>
    refine h.property (.short ?_) (h.append (h.refer _ id s) (Expr.walkScopesOpt_walks h _ init _))
    cases init <;> rfl
  | .keyed key kind value computed =>
    have hv := Expr.walkScopes_walks h cx value
    have hk := Expr.walkScopes_walks h cx.read key s
    have hf : ∀ s f, value = .func f → ∃ g, (value.walkScopes v cx s).1 = .func g := by
      rintro s f rfl
      exact ⟨_, rfl⟩
    cases computed with
    | false => exact h.property (.keyed kind false (hf _)) (h.append h.empty (hv _))
    | true => exact h.property (.keyed kind true (hf _)) (h.append hk (hv _))
  | .spread e => exact h.property .spread (Expr.walkScopes_walks h cx e s)

theorem Property.walkScopesList_walks (h : Walks v F G V) (cx : Context) (ps : List Property)
    (s : σ) :
    V .nothing (Property.foldList F ps) s (Property.foldList G (Property.walkScopesList v cx ps s).1)
      (Property.walkScopesList v cx ps s).2 := by
  match ps with
  | [] => exact h.empty
  | p :: ps =>
    exact h.append (Property.walkScopes_walks h cx p s) (Property.walkScopesList_walks h cx ps _)

theorem Func.walkScopes_own (h : Walks v F G V) (cx : Context) (f : Func) (s : σ) :
    V .nothing (f.fold F .own) s ((f.walkScopes v cx true s).1.fold G .own)
      (f.walkScopes v cx true s).2 := by
  match f with
  | .mk name params rest body _ _ =>
    exact h.inScope (.inl rfl) _ (Func.fold G .own) _ _ (fun s =>
      h.append (h.ownName cx rfl name s) (h.contain none
        (h.append (h.literal rfl (Declarator.walkScopesElems_walks h cx.read .param .funcLiteral
          (BindingKind.takes_literal _ rfl) params _))
          (h.append (h.literal rfl (Pattern.walkScopesOpt_walks h cx.read .param .funcLiteral
            (BindingKind.takes_literal _ rfl) rest _))
            (Stmt.walkScopesList_walks h cx.read body _))))) s

/-- The inside of a function whose name is declared around it. -/
theorem Func.walkScopes_inside (h : Walks v F G V) (cx : Context) (f : Func) (s : σ) :
    V .nothing (f.inside F) s ((f.walkScopes v cx false s).1.inside G) (f.walkScopes v cx false s).2 := by
  match f with
  | .mk name params rest body _ _ =>
    refine h.inScope (i := .nothing) (c := none) (.inl rfl) _ (Func.inside G) _ _ (fun s => ?_) s
    cases name <;> exact h.contain none
      (h.append (h.literal rfl (Declarator.walkScopesElems_walks h cx.read .param .funcLiteral
        (BindingKind.takes_literal _ rfl) params _))
        (h.append (h.literal rfl (Pattern.walkScopesOpt_walks h cx.read .param .funcLiteral
          (BindingKind.takes_literal _ rfl) rest _))
          (Stmt.walkScopesList_walks h cx.read body _)))

theorem Class.walkScopes_own (h : Walks v F G V) (cx : Context) (c : Class) (s : σ) :
    V .nothing (c.fold F .own) s ((c.walkScopes v cx true s).1.fold G .own)
      (c.walkScopes v cx true s).2 := by
  match c with
  | .mk name superclass body decorators =>
    have hd := Expr.walkScopesList_walks h cx.read decorators s
    have hs := Expr.walkScopesOpt_walks h cx.read superclass
      (Expr.walkScopesList v cx.read decorators s).2
    have hb := h.straddle (do
        let name ← v.ownName cx true .clsLiteral name
        return (name, ← ClassElement.walkScopesList v cx.read body))
      (fun r => G.optIdent (.binding .own) r.1) (fun r => ClassElement.foldList G r.2) .cls .cls
      (fun s => ⟨_, h.ownName cx rfl name s, h.weaken rfl (ClassElement.walkScopesList_walks h _ body _)⟩) hs
    have he : ∀ superclass decorators, (do
        let name ← v.ownName cx true .clsLiteral name
        return Class.mk name superclass (← ClassElement.walkScopesList v cx.read body) decorators :
          StateM σ Class) = (fun r => Class.mk r.1 superclass r.2 decorators) <$> (do
        let name ← v.ownName cx true .clsLiteral name
        return (name, ← ClassElement.walkScopesList v cx.read body)) := fun _ _ => rfl
    simp only [Class.walkScopes, run_bind, he, h.scope_map]
    exact h.append hd hb

/-- The inside of a class whose name is declared after it. -/
theorem Class.walkScopes_inside (h : Walks v F G V) (cx : Context) (c : Class) (s : σ) :
    ∃ u, V .nothing (c.before F) s ((c.walkScopes v cx false s).1.before G) u ∧
      V .nothing (c.after F) u ((c.walkScopes v cx false s).1.after G) (c.walkScopes v cx false s).2 := by
  match c with
  | .mk name superclass body decorators =>
    have hd := Expr.walkScopesList_walks h cx.read decorators s
    have hs := Expr.walkScopesOpt_walks h cx.read superclass
      (Expr.walkScopesList v cx.read decorators s).2
    have hb := fun s => h.inScope (i := .nothing) (c := none) (.inl rfl) (ClassElement.walkScopesList v cx.read body)
      (ClassElement.foldList G) .cls .cls (fun s => h.weaken rfl (ClassElement.walkScopesList_walks h _ body s)) s
    have he : ∀ superclass decorators, (do
        let name ← v.ownName cx false .clsLiteral name
        return Class.mk name superclass (← ClassElement.walkScopesList v cx.read body) decorators :
          StateM σ Class) = (fun r => Class.mk name superclass r decorators) <$>
        (ClassElement.walkScopesList v cx.read body) := by
      intro _ _
      cases name <;> rfl
    simp only [Class.walkScopes, run_bind, he, h.scope_map]
    exact ⟨_, hd, h.append hs (hb _)⟩

theorem ClassElement.walkScopes_walks (h : Walks v F G V) (cx : Context) (e : ClassElement)
    (s : σ) : V .nothing (e.fold F) s ((e.walkScopes v cx s).1.fold G) (e.walkScopes v cx s).2 := by
  match e with
  | .field key init computed _ =>
    have hi := Expr.walkScopesOpt_walks h cx init
    have hk := Expr.walkScopes_walks h cx key s
    cases computed with
    | false => exact h.append h.empty (hi _)
    | true => exact h.append hk (hi _)
  | .method key _ body computed _ =>
    have hb := Func.walkScopes_own h cx body
    have hk := Expr.walkScopes_walks h cx key s
    cases computed with
    | false => exact h.append h.empty (hb _)
    | true => exact h.append hk (hb _)
  | .block body =>
    exact h.inScope (.inl rfl) _ (Stmt.foldList G) _ _ (fun s => Stmt.walkScopesList_walks h cx body s) s

theorem ClassElement.walkScopesList_walks (h : Walks v F G V) (cx : Context)
    (es : List ClassElement) (s : σ) :
    V .nothing (ClassElement.foldList F es) s
      (ClassElement.foldList G (ClassElement.walkScopesList v cx es s).1)
      (ClassElement.walkScopesList v cx es s).2 := by
  match es with
  | [] => exact h.empty
  | e :: es =>
    exact h.append (ClassElement.walkScopes_walks h cx e s)
      (ClassElement.walkScopesList_walks h cx es _)

theorem Pattern.walkScopes_walks (h : Walks v F G V) (cx : Context) (kind : BindingKind)
    (origin : Origin) (hk : kind.Takes origin) (p : Pattern) (s : σ) :
    V (.names origin) (p.fold F kind) s ((p.walkScopes v cx kind origin s).1.fold G kind)
      (p.walkScopes v cx kind origin s).2 := by
  match p with
  | .hole => exact h.hole
  | .ident id => exact h.declare cx.inHead id kind origin s hk
  | .array elems rest =>
    exact h.append (Declarator.walkScopesElems_walks h cx kind origin hk elems s)
      (Pattern.walkScopesOpt_walks h cx kind origin hk rest _)
  | .object props rest =>
    exact h.append (PatternProp.walkScopesList_walks h cx kind origin hk props s)
      (Pattern.walkScopesOpt_walks h cx kind origin hk rest _)

theorem Pattern.walkScopesOpt_walks (h : Walks v F G V) (cx : Context) (kind : BindingKind)
    (origin : Origin) (hk : kind.Takes origin) (p : Option Pattern) (s : σ) :
    V (.names origin) (Pattern.foldOpt F kind p) s
      (Pattern.foldOpt G kind (Pattern.walkScopesOpt v cx kind origin p s).1)
      (Pattern.walkScopesOpt v cx kind origin p s).2 := by
  match p with
  | none => exact h.empty
  | some p => exact Pattern.walkScopes_walks h cx kind origin hk p s

theorem Declarator.walkScopesElem_walks (h : Walks v F G V) (cx : Context) (kind : BindingKind)
    (origin : Origin) (hk : kind.Takes origin) (d : Declarator) (s : σ) :
    V (.names origin) (d.foldElem F kind) s ((d.walkScopesElem v cx kind origin s).1.foldElem G kind)
      (d.walkScopesElem v cx kind origin s).2 := by
  match d with
  | .mk site target init =>
    have hi := Expr.walkScopesOpt_walks h cx init (v.site site s).2
    have ht := Pattern.walkScopes_walks h cx kind origin hk target
      (Expr.walkScopesOpt v cx init (v.site site s).2).2
    refine h.element (target.walkScopes_form v cx kind origin _).symm ?_ (h.swap (h.weaken rfl hi) ht)
    cases init <;> rfl

theorem Declarator.walkScopesElems_walks (h : Walks v F G V) (cx : Context) (kind : BindingKind)
    (origin : Origin) (hk : kind.Takes origin) (ds : List Declarator) (s : σ) :
    V (.names origin) (Declarator.foldElems F kind ds) s
      (Declarator.foldElems G kind (Declarator.walkScopesElems v cx kind origin ds s).1)
      (Declarator.walkScopesElems v cx kind origin ds s).2 := by
  match ds with
  | [] => exact h.empty
  | d :: ds =>
    exact h.append (Declarator.walkScopesElem_walks h cx kind origin hk d s)
      (Declarator.walkScopesElems_walks h cx kind origin hk ds _)

theorem PatternProp.walkScopes_walks (h : Walks v F G V) (cx : Context) (kind : BindingKind)
    (origin : Origin) (hk : kind.Takes origin) (p : PatternProp) (s : σ) :
    V (.names origin) (p.fold F kind) s ((p.walkScopes v cx kind origin s).1.fold G kind)
      (p.walkScopes v cx kind origin s).2 := by
  match p with
  | .mk key computed _ value =>
    have hv := Declarator.walkScopesElem_walks h cx kind origin hk value
    have hk := Expr.walkScopes_walks h cx key s
    cases computed with
    | false => exact h.append h.empty (hv _)
    | true => exact h.append (h.weaken rfl hk) (hv _)

theorem PatternProp.walkScopesList_walks (h : Walks v F G V) (cx : Context) (kind : BindingKind)
    (origin : Origin) (hk : kind.Takes origin) (ps : List PatternProp) (s : σ) :
    V (.names origin) (PatternProp.foldList F kind ps) s
      (PatternProp.foldList G kind (PatternProp.walkScopesList v cx kind origin ps s).1)
      (PatternProp.walkScopesList v cx kind origin ps s).2 := by
  match ps with
  | [] => exact h.empty
  | p :: ps =>
    exact h.append (PatternProp.walkScopes_walks h cx kind origin hk p s)
      (PatternProp.walkScopesList_walks h cx kind origin hk ps _)

theorem Declarator.walkScopesDecls_walks (h : Walks v F G V) (cx : Context) (kind : DeclKind)
    (isExported : Bool) (ds : List Declarator) (s : σ) :
    V (.statements c) (Declarator.foldList F kind.bindingKind ds) s
      (Declarator.foldList G kind.bindingKind (Declarator.walkScopesDecls v cx kind isExported ds s).1)
      (Declarator.walkScopesDecls v cx kind isExported ds s).2 := by
  match ds with
  | [] => exact h.empty
  | .mk site target init :: ds =>
    have hi := Expr.walkScopesOpt_walks h cx init (v.site site s).2
    have ht := h.contain (some .decl) (Pattern.walkScopes_walks h cx kind.bindingKind
      (.declarator (v.site site s).1) (kind.takes_declarator _) target
      (v.contain (some .decl) (Expr.walkScopesOpt v cx init (v.site site s).2).2).2)
    have hf := (target.walkScopes_form v cx kind.bindingKind (.declarator (v.site site s).1)
      (v.contain (some .decl) (Expr.walkScopesOpt v cx init (v.site site s).2).2).2).symm
    have hsome : init.isSome = (Expr.walkScopesOpt v cx init (v.site site s).2).1.isSome := by
      cases init <;> rfl
    cases isExported with
    | false =>
      exact h.append (h.declarator hf hsome hi ht) (Declarator.walkScopesDecls_walks h cx kind false ds _)
    | true =>
      exact h.append (h.declarator hf hsome hi (h.exportDeclared _ ht))
        (Declarator.walkScopesDecls_walks h cx kind true ds _)

/-- A statement whose declarations are held by `container`. -/
theorem Stmt.walkScopes_walks (h : Walks v F G V) (cx : Context) (container : Option Container)
    (t : Stmt) (s : σ) :
    V (.statements container) (t.fold F) s ((t.walkScopes v cx container s).1.fold G)
      (t.walkScopes v cx container s).2 := by
  match t with
  | .empty | .debugger | .exportAll .. => exact h.stmt rfl rfl h.empty
  | .block body =>
    exact h.stmt rfl rfl (h.inScope (.inl rfl) _ (Stmt.foldList G) _ _
      (fun s => Stmt.walkScopesList_walks h cx body s) s)
  | .expr e => exact h.stmt rfl rfl (h.weaken rfl (Expr.walkScopes_walks h cx e s))
  | .cond test yes no =>
    exact h.stmt rfl rfl (h.append (h.weaken rfl (Expr.walkScopes_walks h cx test s))
      (h.append (Stmt.walkScopes_walks h cx none yes _) (Stmt.walkScopesOpt_walks h cx no _)))
  | .ret arg => exact h.stmt rfl rfl (h.weaken rfl (Expr.walkScopesOpt_walks h cx arg s))
  | .throw arg => exact h.stmt rfl rfl (h.weaken rfl (Expr.walkScopes_walks h cx arg s))
  | .brk label => exact h.stmt rfl rfl (h.optLabel label s)
  | .cont label => exact h.stmt rfl rfl (h.optLabel label s)
  | .labelled label body =>
    exact h.stmt rfl rfl (h.append (h.label label) (Stmt.walkScopes_walks h cx none body s))
  | .while test body =>
    exact (h.inScope (.inr rfl) _ (Stmt.fold G) _ _
      (fun s => h.stmt (c := container) (x := .while test body) (by rfl) rfl
      (h.append (h.weaken rfl (Expr.walkScopes_walks h cx test s)) (Stmt.walkScopes_walks h cx none body _))) s)
  | .doWhile body test =>
    exact (h.inScope (.inr rfl) _ (Stmt.fold G) _ _
      (fun s => h.stmt (c := container) (x := .doWhile body test) (by rfl) rfl
      (h.append (Stmt.walkScopes_walks h cx none body s) (h.weaken rfl (Expr.walkScopes_walks h cx test _)))) s)
  | .for head test update body =>
    exact (h.inScope (.inr rfl) _ (Stmt.fold G) _ _
      (fun s => h.stmt (c := container) (x := .for head test update body) (by rfl) rfl
      (h.append (ForHead.walkScopes_walks h cx head s)
        (h.append (h.weaken rfl (Expr.walkScopesOpt_walks h cx test _))
          (h.append (h.weaken rfl (Expr.walkScopesOpt_walks h cx update _))
            (Stmt.walkScopes_walks h cx none body _))))) s)
  | .forIn head source body =>
    exact (h.inScope (.inr rfl) _ (Stmt.fold G) _ _
      (fun s => h.stmt (c := container) (x := .forIn head source body) (by rfl) rfl
      (h.append (ForHead.walkScopes_walks h _ head s)
        (h.append (h.weaken rfl (Expr.walkScopes_walks h cx source _))
          (Stmt.walkScopes_walks h cx none body _)))) s)
  | .forOf head source body await =>
    exact (h.inScope (.inr rfl) _ (Stmt.fold G) _ _
      (fun s => h.stmt (c := container) (x := .forOf head source body await) (by rfl) rfl
      (h.append (ForHead.walkScopes_walks h _ head s)
        (h.append (h.weaken rfl (Expr.walkScopes_walks h cx source _))
          (Stmt.walkScopes_walks h cx none body _)))) s)
  | .switch subject cases =>
    exact h.stmt rfl rfl (h.append (Expr.walkScopes_walks h cx subject s)
      (h.inScope (.inl rfl) _ (Case.foldList G) _ _ (fun s => Case.walkScopesList_walks h cx cases s) _))
  | .tryCatch body param handler finalizer =>
    have hb := h.inScope (.inl rfl) _ (Stmt.foldList G) .block .block
      (fun s => Stmt.walkScopesList_walks h cx body s) s
    have hh := fun s => h.literal rfl (Pattern.walkScopesOpt_walks h cx .caught .handler
      (BindingKind.takes_literal _ rfl) param s)
    refine h.stmt (by rfl) rfl (h.append hb (h.assoc (h.append (h.inScope (i := .nothing) (c := none) (.inl rfl) _
      (fun r : Option Pattern × List Stmt => G.append (Pattern.foldOpt G .caught r.1)
        (Stmt.foldList G r.2)) _ _ (fun s => ?_) _)
      (Stmt.walkScopesBlock_walks h cx finalizer _))))
    cases param with
    | none => exact h.append (hh _) (Stmt.walkScopesList_walks h cx handler _)
    | some p => exact h.contain none (h.append (hh _) (Stmt.walkScopesList_walks h cx handler _))
  | .tryFinally body finalizer =>
    exact h.stmt rfl rfl
      (h.append (h.inScope (.inl rfl) _ (Stmt.foldList G) _ _ (fun s => Stmt.walkScopesList_walks h cx body s) s)
        (h.inScope (.inl rfl) _ (Stmt.foldList G) _ _ (fun s => Stmt.walkScopesList_walks h cx finalizer s) _))
  | .decl kind list => exact h.stmt rfl rfl (Declarator.walkScopesDecls_walks h cx kind _ list s)
  | .func f =>
    have hi := fun s => Func.walkScopes_inside h cx f s
    have hf := Func.fold_withName F .func f.name f
    rw [Func.withName_self] at hf
    cases hn : f.name with
    | none =>
      simp only [Stmt.walkScopes, run_bind, run_pure, hn, Option.mapM_none]
      refine h.stmt (by rfl) rfl (h.contain container ?_)
      rw [Func.fold_withName, hf, hn]
      exact h.func hn (Func.withName_name _ _) (hi _)
    | some id =>
      simp only [Stmt.walkScopes, run_bind, run_pure, hn, Option.mapM_some]
      refine h.stmt (by rfl) rfl ?_
      rw [Func.fold_withName, hf, hn]
      exact h.funcNamed cx.inHead container hn (Func.withName_name _ _) (hi _)
  | .cls c =>
    obtain ⟨u, hbefore, hafter⟩ := Class.walkScopes_inside h cx c s
    have hform {name : Option Ident} : c.form = ((c.walkScopes v cx false s).1.withName name).form := by
      rw [Class.form_withName, Class.walkScopes_form h]
    have hc := Class.fold_withName F .cls c.name c
    rw [Class.withName_self] at hc
    cases hn : c.name with
    | none =>
      simp only [Stmt.walkScopes, run_bind, run_pure, hn, Option.mapM_none]
      refine h.stmt (by rfl) rfl ?_
      rw [Class.fold_withName, hc, hn]
      exact h.cls hform hn (Class.withName_name _ _) hbefore hafter
    | some id =>
      simp only [Stmt.walkScopes, run_bind, run_pure, hn, Option.mapM_some]
      refine h.stmt (by rfl) rfl ?_
      rw [Class.fold_withName, hc, hn]
      exact h.clsNamed cx.inHead container hform hn (Class.withName_name _ _) hbefore hafter
  | .importDecl specs _ => exact h.stmt rfl rfl (h.imports cx specs s)
  | .exportDecl decl => exact h.stmt rfl rfl (Stmt.walkScopes_walks h cx _ decl s)
  | .exportNames specs source =>
    cases source with
    | some _ => exact h.foreign specs _ s
    | none => exact h.stmt rfl rfl (h.exports specs s)
  | .exportDefault decl => exact h.stmt rfl rfl (Stmt.walkScopes_walks h cx _ decl s)
  | .exportDefaultExpr e => exact h.stmt rfl rfl (h.weaken rfl (Expr.walkScopes_walks h cx e s))

theorem Stmt.walkScopesOpt_walks (h : Walks v F G V) (cx : Context) (t : Option Stmt) (s : σ) :
    V (.statements none) (Stmt.foldOpt F t) s (Stmt.foldOpt G (Stmt.walkScopesOpt v cx t s).1)
      (Stmt.walkScopesOpt v cx t s).2 := by
  match t with
  | none => exact h.empty
  | some t => exact Stmt.walkScopes_walks h cx none t s

theorem Stmt.walkScopesList_walks (h : Walks v F G V) (cx : Context) (ts : List Stmt) (s : σ) :
    V (.statements none) (Stmt.foldList F ts) s (Stmt.foldList G (Stmt.walkScopesList v cx ts s).1)
      (Stmt.walkScopesList v cx ts s).2 := by
  match ts with
  | [] => exact h.empty
  | t :: ts =>
    exact h.append (Stmt.walkScopes_walks h cx none t s) (Stmt.walkScopesList_walks h cx ts _)

theorem Stmt.walkScopesBlock_walks (h : Walks v F G V) (cx : Context) (ts : Option (List Stmt))
    (s : σ) :
    V .nothing (Stmt.foldOptList F ts) s (Stmt.foldOptList G (Stmt.walkScopesBlock v cx ts s).1)
      (Stmt.walkScopesBlock v cx ts s).2 := by
  match ts with
  | none => exact h.empty
  | some ts =>
    exact h.inScope (.inl rfl) _ (Stmt.foldList G) _ _ (fun s => Stmt.walkScopesList_walks h cx ts s) s

theorem ForHead.walkScopes_walks (h : Walks v F G V) (cx : Context) (head : ForHead) (s : σ) :
    V (.statements none) (head.fold F) s ((head.walkScopes v cx s).1.fold G) (head.walkScopes v cx s).2 := by
  match head with
  | .empty => exact h.empty
  | .decl kind list => exact Declarator.walkScopesDecls_walks h _ kind _ list s
  | .expr e => exact h.weaken rfl (Expr.walkScopes_walks h cx e s)

theorem Case.walkScopes_walks (h : Walks v F G V) (cx : Context) (c : Case) (s : σ) :
    V (.statements none) (c.fold F) s ((c.walkScopes v cx s).1.fold G) (c.walkScopes v cx s).2 := by
  match c with
  | .mk test body =>
    exact h.append (h.weaken rfl (Expr.walkScopesOpt_walks h cx test s)) (Stmt.walkScopesList_walks h cx body _)

theorem Case.walkScopesList_walks (h : Walks v F G V) (cx : Context) (cs : List Case) (s : σ) :
    V (.statements none) (Case.foldList F cs) s (Case.foldList G (Case.walkScopesList v cx cs s).1)
      (Case.walkScopesList v cx cs s).2 := by
  match cs with
  | [] => exact h.empty
  | c :: cs => exact h.append (Case.walkScopes_walks h cx c s) (Case.walkScopesList_walks h cx cs _)

end

theorem Program.walkScopes_walks (h : Walks v F G V) (p : Program) (s : σ) :
    V .nothing (p.fold F) s ((p.walkScopes v s).1.fold G) (p.walkScopes v s).2 :=
  h.inScope (.inl rfl) _ (Program.fold G) _ _ (fun s => Stmt.walkScopesList_walks h {} p.body s) s

end Deadwood
